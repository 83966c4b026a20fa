import RobotAnalysis.Proofs.PathSteps

/-!
# Walks along paths

A path is walked from some directory: a name leads down, a parent up, and above the root there is
nothing. Resolving a path takes away what does not matter to a walk, but also more: the parents that
a path begins with cancel each other in pairs. So a path that leads two or more levels above the
directory that it is read from is resolved to one that leads elsewhere, unless the walk is stopped
by the root. In every other respect a resolved path is what it should be.
-/
namespace RobotAnalysis.Path

/-- Where one step leads from a directory. A directory is given by the names on the way to it from
the root, the last one first. -/
def walkStep (directory : List Text) : Component → List Text
  | .root => []
  | .current => directory
  | .parent => directory.tail
  | .normal name => name :: directory

/-- Where components lead from a directory. -/
def walk (start : List Text) (components : List Component) : List Text :=
  components.foldl walkStep start

/-- How many levels components lead above the directory that they are read from, wherever they lead
down again. Components that begin at the root are read from nowhere. -/
def climb : List Component → Nat
  | [] | .root :: _ => 0
  | .current :: cs => climb cs
  | .parent :: cs => climb cs + 1
  | .normal _ :: cs => climb cs - 1

/-- Whether nothing is left to be resolved in components. -/
structure IsResolved (components : List Component) : Prop where
  no_current : .current ∉ components
  /-- No parent stands behind a name. -/
  no_parent : ∀ front name back, components = front ++ .normal name :: back → .parent ∉ back

variable {cs base : List Component}

theorem walk_append (start : List Text) (cs ds : List Component) :
    walk start (cs ++ ds) = walk (walk start cs) ds := List.foldl_append

theorem walk_cons (start : List Text) (c : Component) (cs : List Component) :
    walk start (c :: cs) = walk (walkStep start c) cs := rfl

/-- A walk does not look at the directories that it stays below: it goes on from what is left of the
names before it, and from the start only where it leads above all of them. -/
theorem walk_names_append (relative : .root ∉ cs) (names start : List Text) :
    walk (names ++ start) cs = walk names cs ++ start.drop (climb cs - names.length) := by
  induction cs generalizing names start with
  | nil => simp [walk, climb]
  | cons c cs ih =>
    rw [List.mem_cons, not_or] at relative
    rw [walk_cons, walk_cons]
    cases c with
    | root => exact absurd rfl relative.1
    | current => exact ih relative.2 names start
    | parent =>
      cases names with
      | nil =>
        have above := ih relative.2 [] start.tail
        simp only [List.nil_append, List.length_nil, Nat.sub_zero] at above
        show walk start.tail cs = walk [] cs ++ start.drop (climb cs + 1 - 0)
        rw [above, List.drop_tail, Nat.sub_zero]
      | cons name names =>
        have below := ih relative.2 names start
        show walk (names ++ start) cs =
          walk names cs ++ start.drop (climb cs + 1 - (names.length + 1))
        rw [below]
        congr 2
        omega
    | normal name =>
      have below := ih relative.2 (name :: names) start
      show walk (name :: names ++ start) cs =
        walk (name :: names) cs ++ start.drop (climb cs - 1 - names.length)
      rw [below, List.length_cons]
      congr 2
      omega

/-- A walk ends at the names that are left of the path, below what is left of its start. -/
theorem walk_eq (relative : .root ∉ cs) (start : List Text) :
    walk start cs = walk [] cs ++ start.drop (climb cs) := by
  have whole := walk_names_append relative [] start
  simpa using whole

/-- Whether components that are read from nowhere or from the current directory may stand before
others. -/
def IsBase (base : List Component) : Prop := base = [] ∨ base = [.root]

/-- What resolving leaves of names, parents above them and what a path begins with, in reverse. -/
def stack (names : List Text) (parents : Nat) (base : List Component) : List Component :=
  names.map .normal ++ (List.replicate (parents % 2) .parent ++ base)

/-- A parent takes away a parent that no name stands behind. -/
theorem pushResolved_stack_parent (hb : IsBase base) (parents : Nat) :
    pushResolved (stack [] parents base) .parent = stack [] (parents + 1) base := by
  rcases Nat.mod_two_eq_zero_or_one parents with even | odd
  · have next : (parents + 1) % 2 = 1 := by omega
    rcases hb with rfl | rfl <;> simp [stack, even, next, pushResolved]
  · have next : (parents + 1) % 2 = 0 := by omega
    simp [stack, odd, next, pushResolved]

/-- Resolving keeps the names that a walk keeps, and every second one of the parents above them. -/
theorem foldl_pushResolved_stack (hb : IsBase base) (relative : .root ∉ cs) (names : List Text)
    (parents : Nat) : cs.foldl pushResolved (stack names parents base) =
      stack (walk names cs) (parents + (climb cs - names.length)) base := by
  induction cs generalizing names parents with
  | nil => simp [walk, climb]
  | cons c cs ih =>
    rw [List.mem_cons, not_or] at relative
    rw [List.foldl_cons, walk_cons]
    cases c with
    | root => exact absurd rfl relative.1
    | current => exact ih relative.2 names parents
    | parent =>
      cases names with
      | nil =>
        rw [pushResolved_stack_parent hb, ih relative.2]
        show stack (walk [] cs) (parents + 1 + (climb cs - 0)) base =
          stack (walk [] cs) (parents + (climb cs + 1 - 0)) base
        congr 1
        omega
      | cons name names =>
        have popped : pushResolved (stack (name :: names) parents base) .parent =
            stack names parents base := rfl
        rw [popped, ih relative.2]
        show stack (walk names cs) (parents + (climb cs - names.length)) base =
          stack (walk names cs) (parents + (climb cs + 1 - (names.length + 1))) base
        congr 1
        omega
    | normal name =>
      have pushed : pushResolved (stack names parents base) (.normal name) =
          stack (name :: names) parents base := rfl
      rw [pushed, ih relative.2, List.length_cons]
      show stack (walk (name :: names) cs) (parents + (climb cs - (names.length + 1))) base =
        stack (walk (name :: names) cs) (parents + (climb cs - 1 - names.length)) base
      congr 1
      omega

/-- A path of parents, fewer than two, and names below them, behind what it begins with. -/
def resolved (base : List Component) (parents : Nat) (names : List Text) : List Component :=
  base ++ (List.replicate (parents % 2) .parent ++ (names.map .normal).reverse)

theorem reverse_stack (hb : IsBase base) (names : List Text) (parents : Nat) :
    (stack names parents base).reverse = resolved base parents names := by
  have same : base.reverse = base := by rcases hb with rfl | rfl <;> rfl
  simp [stack, resolved, same]

/-- What a path is resolved to: of the levels that it leads up, only whether they are odd in number
is kept. -/
theorem normalize_base_append (hb : IsBase base) (relative : .root ∉ cs) :
    normalize (base ++ cs) = resolved base (climb cs) (walk [] cs) := by
  have begun : base.foldl pushResolved [] = stack [] 0 base := by rcases hb with rfl | rfl <;> rfl
  rw [normalize, List.foldl_append, begun, foldl_pushResolved_stack hb relative, reverse_stack hb,
    Nat.zero_add, List.length_nil, Nat.sub_zero]

theorem walk_replicate_parent (start : List Text) (n : Nat) :
    walk start (List.replicate n .parent) = start.drop n := by
  induction n generalizing start with
  | zero => rfl
  | succ n ih =>
    rw [List.replicate_succ, walk_cons, walkStep, ih, List.drop_tail]

theorem walk_names (start names : List Text) :
    walk start (names.map .normal).reverse = names ++ start := by
  induction names with
  | nil => rfl
  | cons name names ih =>
    rw [List.map_cons, List.reverse_cons, walk_append, ih]
    rfl

/-- Where a resolved path leads. -/
theorem walk_resolved (start : List Text) (base : List Component) (parents : Nat)
    (names : List Text) : walk start (resolved base parents names) =
      names ++ (walk start base).drop (parents % 2) := by
  rw [resolved, walk_append, walk_append, walk_replicate_parent, walk_names]

theorem climb_replicate_append (n : Nat) (cs : List Component) :
    climb (List.replicate n .parent ++ cs) = climb cs + n := by
  induction n with
  | zero => rfl
  | succ n ih =>
    show climb (List.replicate n .parent ++ cs) + 1 = climb cs + (n + 1)
    rw [ih, Nat.add_assoc]

theorem climb_names {names : List Component} (h : ∀ c ∈ names, ∃ name, c = .normal name) :
    climb names = 0 := by
  induction names with
  | nil => rfl
  | cons c names ih =>
    obtain ⟨⟨name, rfl⟩, rest⟩ := List.forall_mem_cons.1 h
    show climb names - 1 = 0
    rw [ih rest]

theorem exists_of_mem_names {names : List Text} :
    ∀ c ∈ (names.map Component.normal).reverse, ∃ name, c = .normal name := by
  intro c hc
  obtain ⟨name, -, rfl⟩ := List.mem_map.1 (List.mem_reverse.1 hc)
  exact ⟨name, rfl⟩

/-- Resolving a path again changes nothing. -/
theorem normalize_resolved (hb : IsBase base) (parents : Nat) (names : List Text) :
    normalize (resolved base parents names) = resolved base parents names := by
  have relative : .root ∉ List.replicate (parents % 2) Component.parent ++
      (names.map Component.normal).reverse := by simp
  have above : climb (List.replicate (parents % 2) Component.parent ++
      (names.map Component.normal).reverse) = parents % 2 := by
    rw [climb_replicate_append, climb_names exists_of_mem_names, Nat.zero_add]
  have below : walk [] (List.replicate (parents % 2) Component.parent ++
      (names.map Component.normal).reverse) = names := by
    rw [walk_append, walk_replicate_parent, walk_names, List.drop_nil, List.append_nil]
  rw [resolved, normalize_base_append hb relative, above, below, resolved, Nat.mod_mod]

theorem isResolved_resolved (hb : IsBase base) (parents : Nat) (names : List Text) :
    IsResolved (resolved base parents names) where
  no_current := by rcases hb with rfl | rfl <;> simp [resolved]
  no_parent front name back whole := by
    -- Where a name stands, everything before the names is in front of it.
    have no_name : Component.normal name ∉ base ++ List.replicate (parents % 2) .parent := by
      rcases hb with rfl | rfl <;> simp
    rw [resolved, ← List.append_assoc] at whole
    rcases List.append_eq_append_iff.1 whole with ⟨more, -, inside⟩ | ⟨more, before, behind⟩
    · intro parent
      have held : Component.parent ∈ (names.map Component.normal).reverse :=
        inside ▸ List.mem_append_right _ (List.mem_cons_of_mem _ parent)
      obtain ⟨other, same⟩ := exists_of_mem_names _ held
      cases same
    · cases more with
      | nil =>
        intro parent
        have same : .normal name :: back = (names.map Component.normal).reverse := behind
        have held : Component.parent ∈ (names.map Component.normal).reverse :=
          same ▸ List.mem_cons_of_mem _ parent
        obtain ⟨other, same⟩ := exists_of_mem_names _ held
        cases same
      | cons c more =>
        obtain ⟨rfl, -⟩ := List.cons.inj behind
        exact absurd (before ▸ List.mem_append_right _ List.mem_cons_self) no_name

/-- Two ways up lead to the same directory if they are equally long or the shorter one leads out of
every directory. -/
theorem drop_eq_drop_iff {start : List Text} {m n : Nat} (le : m ≤ n) :
    start.drop m = start.drop n ↔ m = n ∨ start.length ≤ m := by
  constructor
  · intro same
    have lengths := congrArg List.length same
    simp only [List.length_drop] at lengths
    omega
  · rintro (rfl | out)
    · rfl
    · rw [List.drop_eq_nil_of_le out, List.drop_eq_nil_of_le (Nat.le_trans out le)]

/-- The root stands only at the beginning of a path. -/
theorem exists_base_append (p : Path) :
    ∃ base cs, IsBase base ∧ p.components = base ++ cs ∧ .root ∉ cs := by
  cases absolute : p.isAbsolute with
  | true =>
    refine ⟨[.root], steps p.text, .inr rfl, ?_, root_notMem_steps⟩
    rw [components_eq, anchor_of_absolute absolute]
  | false =>
    refine ⟨[], p.components, .inl rfl, rfl, ?_⟩
    rw [components_eq, List.mem_append, not_or]
    refine ⟨?_, root_notMem_steps⟩
    rcases anchor_of_relative absolute with none | current
    · simp [none]
    · simp [current]

/-- A resolved path has no `.` and no parent behind a name, and it is resolved to itself. It leads
where the path leads if and only if the path leads at most one level above the directory that it is
read from, or what is left of the way up leads out of that directory to the root all the same. -/
theorem walk_normalize (p : Path) :
    IsResolved (normalize p.components) ∧
      normalize (normalize p.components) = normalize p.components ∧
      ∀ start, walk start (normalize p.components) = walk start p.components ↔
        climb p.components ≤ 1 ∨ start.length ≤ climb p.components % 2 := by
  obtain ⟨base, cs, hb, whole, relative⟩ := exists_base_append p
  have closed : normalize p.components = resolved base (climb cs) (walk [] cs) := by
    rw [whole, normalize_base_append hb relative]
  refine ⟨closed ▸ isResolved_resolved hb _ _, ?_, fun start => ?_⟩
  · rw [closed, normalize_resolved hb]
  · have there : walk start p.components = walk [] cs ++ (walk start base).drop (climb cs) := by
      rw [whole, walk_append, walk_eq relative]
    rw [closed, walk_resolved, there, List.append_cancel_left_eq,
      drop_eq_drop_iff (Nat.mod_le _ _)]
    rcases hb with rfl | rfl
    · rw [whole, List.nil_append]
      show climb cs % 2 = climb cs ∨ start.length ≤ climb cs % 2 ↔ _
      omega
    · -- From the root there is no way up.
      rw [whole]
      exact iff_of_true (.inr (Nat.zero_le _)) (.inl (Nat.zero_le 1))

/-- Two parents cancel each other. -/
example : normalize (Path.mk "../../x".toList).components = [.normal ['x']] ∧
    walk [['b'], ['a']] [.parent, .parent, .normal ['x']] = [['x']] := by decide +kernel

end RobotAnalysis.Path
