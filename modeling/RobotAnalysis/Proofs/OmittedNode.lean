import RobotAnalysis.Proofs.DepthFirstOrder

/-!
# Walks with a node left out

Two walks through the same graph, of which the second one misses a pending node, or meets it later.
Up to the node both meet the same. What the first walk then meets at the node and below it is a
block without a way out: all neighbours of its nodes are in it or were met before. So whatever the
second walk meets of it, and wherever, leads nowhere else, and both walks meet the same nodes
outside the block, in the same order.
-/
namespace RobotAnalysis.DepthFirst

universe u v w

variable {α : Type u} {β : Type v} {κ : Type w} [DecidableEq κ]
variable {key : α → κ} {next next' : α → List α} {met pending pending' out out' : List α} {t : α}

/-- The nodes whose keys are not among some keys. -/
def without (key : α → κ) (keys : List κ) (l : List α) : List α := l.filter fun a => key a ∉ keys

@[simp] theorem without_append (keys : List κ) (l m : List α) :
    without key keys (l ++ m) = without key keys l ++ without key keys m :=
  List.filter_append ..

theorem without_cons_of_mem {keys : List κ} {a : α} (h : key a ∈ keys) (l : List α) :
    without key keys (a :: l) = without key keys l :=
  List.filter_cons_of_neg (by simpa using h)

theorem without_cons_of_notMem {keys : List κ} {a : α} (h : key a ∉ keys) (l : List α) :
    without key keys (a :: l) = a :: without key keys l :=
  List.filter_cons_of_pos (by simpa using h)

theorem without_eq_nil {keys : List κ} {l : List α} (h : ∀ a ∈ l, key a ∈ keys) :
    without key keys l = [] :=
  List.filter_eq_nil_iff.2 fun a ha => by simpa using h a ha

/-- Leaving out more nodes takes only what leaving out fewer of them has left. -/
theorem without_congr {keys more : List κ} {l m : List α} (fewer : keys ⊆ more)
    (h : without key keys l = without key keys m) : without key more l = without key more m := by
  have twice (l : List α) : without key more l = without key more (without key keys l) := by
    rw [without, without, without, List.filter_filter]
    refine List.filter_congr fun a _ => ?_
    by_cases inside : key a ∈ more
    · simp [inside]
    · have outside : key a ∉ keys := fun h => inside (fewer h)
      simp [inside, outside]
  rw [twice l, twice m, h]

/-- A walk without the nodes of a block that leads only to what has been met, and to itself. -/
theorem Visits.without (h : Visits key next met pending out) {block keys : List κ}
    (inside : block ⊆ keys) (known : ∀ k ∈ keys, k ∈ block ∨ k ∈ met.map key)
    (closed : ∀ a, key a ∈ block → ∀ b ∈ next a, key b ∈ keys) :
    Visits key (fun a => DepthFirst.without key keys (next a)) (DepthFirst.without key block met)
      (DepthFirst.without key keys pending) (DepthFirst.without key block out) := by
  induction h with
  | nil => exact .nil
  | @seen met a pending out seen _ ih =>
    by_cases left : key a ∈ keys
    · rw [without_cons_of_mem left]
      exact ih known
    · rw [without_cons_of_notMem left]
      refine .seen ?_ (ih known)
      obtain ⟨b, hb, same⟩ := List.mem_map.1 seen
      refine List.mem_map.2 ⟨b, List.mem_filter.2 ⟨hb, ?_⟩, same⟩
      rw [same]
      simpa using fun h => left (inside h)
  | @new met a pending mid out unknown below rest ihBelow ihRest =>
    have knownBelow : ∀ k ∈ keys, k ∈ block ∨ k ∈ (met ++ [a]).map key := fun k hk =>
      (known k hk).imp_right fun h => by
        rw [List.map_append]
        exact List.mem_append_left _ h
    have knownRest : ∀ k ∈ keys, k ∈ block ∨ k ∈ mid.map key := fun k hk =>
      (knownBelow k hk).imp_right below.key_mem_of_met
    by_cases left : key a ∈ keys
    · -- A node of the block is met, and nothing that counts lies below it.
      have ofBlock : key a ∈ block := (known _ left).resolve_right unknown
      have nothing := ihBelow knownBelow
      rw [without_eq_nil (closed a ofBlock), without_append,
        without_eq_nil (l := [a]) (by simpa using ofBlock), List.append_nil] at nothing
      have after := ihRest knownRest
      rw [nothing.unique .nil] at after
      rwa [without_cons_of_mem left]
    · have outside : key a ∉ block := fun h => left (inside h)
      rw [without_cons_of_notMem left]
      refine .new ?_ ?_ (ihRest knownRest)
      · intro h
        obtain ⟨b, hb, same⟩ := List.mem_map.1 h
        exact unknown (List.mem_map.2 ⟨b, (List.mem_filter.1 hb).1, same⟩)
      · have added := ihBelow knownBelow
        rwa [without_append, without_cons_of_notMem outside] at added

/-- Whether one list of pending nodes is another one with a node left out somewhere, and perhaps put
in further behind. -/
inductive Omits (key : α → κ) (t : α) : List α → List α → Prop
  | same (l : List α) : Omits key t l l
  | here {l m : List α} (others : without key [key t] l = without key [key t] m) :
      Omits key t (t :: l) m
  | later (a : α) {l m : List α} (h : Omits key t l m) : Omits key t (a :: l) (a :: m)

namespace Omits

theorem without_eq {l m : List α} (h : Omits key t l m) :
    without key [key t] l = without key [key t] m := by
  induction h with
  | same => rfl
  | here others => rw [without_cons_of_mem (by simp), others]
  | later a _ ih => simp only [without, List.filter_cons] at ih ⊢; rw [ih]

theorem append_left (front : List α) {l m : List α} (h : Omits key t l m) :
    Omits key t (front ++ l) (front ++ m) := by
  induction front with
  | nil => exact h
  | cons a front ih => exact ih.later a

/-- Of the keys that have been seen, that of the node left out does not count. -/
theorem without_select {seen seen' : List κ} (l : List α)
    (alike : ∀ k, k ≠ key t → (k ∈ seen ↔ k ∈ seen')) :
    without key [key t] (Sequence.distinctBy.select key seen l) =
      without key [key t] (Sequence.distinctBy.select key seen' l) := by
  induction l generalizing seen seen' with
  | nil => rfl
  | cons a l ih =>
    rw [Sequence.distinctBy.select, Sequence.distinctBy.select]
    by_cases itself : key a = key t
    · have gone (l : List α) : without key [key t] (a :: l) = without key [key t] l :=
        without_cons_of_mem (by simp [itself]) l
      have added {s s' : List κ} (alike : ∀ k, k ≠ key t → (k ∈ s ↔ k ∈ s')) :
          ∀ k, k ≠ key t → (k ∈ key a :: s ↔ k ∈ s') := by
        intro k hk
        rw [List.mem_cons, alike k hk, itself]
        simp [hk]
      have alike' := fun k hk => (alike k hk).symm
      split <;> split
      · exact ih alike
      · rw [gone, ih fun k hk => (added alike' k hk).symm]
      · rw [gone, ih (added alike)]
      · rw [gone, gone, ih (added fun k hk => (added alike' k hk).symm)]
    · have outside : key a ∉ [key t] := by simpa using itself
      have more : ∀ k, k ≠ key t → (k ∈ key a :: seen ↔ k ∈ key a :: seen') := by
        intro k hk
        rw [List.mem_cons, List.mem_cons, alike k hk]
      by_cases known : key a ∈ seen
      · rw [if_pos known, if_pos ((alike _ itself).1 known), ih alike]
      · rw [if_neg known, if_neg fun h => known ((alike _ itself).2 h),
          without_cons_of_notMem outside, without_cons_of_notMem outside, ih more]

/-- A node may be left out before repeated nodes are. -/
theorem distinctBy (front l : List α) :
    Omits key t (Sequence.distinctBy key (front ++ t :: l))
      (Sequence.distinctBy key (front ++ l)) := by
  have select (seen : List κ) : Omits key t (Sequence.distinctBy.select key seen (front ++ t :: l))
      (Sequence.distinctBy.select key seen (front ++ l)) := by
    induction front generalizing seen with
    | nil =>
      rw [List.nil_append, List.nil_append, Sequence.distinctBy.select]
      split
      · exact .same _
      · refine .here (without_select l fun k hk => ?_)
        simp [hk]
    | cons a front ih =>
      rw [List.cons_append, List.cons_append, Sequence.distinctBy.select,
        Sequence.distinctBy.select]
      split
      · exact ih seen
      · exact (ih _).later a
  exact select []

end Omits

/-- What two walks have met of which the second one misses a node: the same, or the same up to the
node, behind which the first one has met a block, and the same outside the block after that. -/
inductive AlikeWithout (key : α → κ) (next : α → List α) (t : α) : List α → List α → Prop
  | same (out : List α) : AlikeWithout key next t out out
  | apart {before block rest rest' : List α}
      (walk : Visits key next before [t] (before ++ block))
      (others : without key (block.map key) rest = without key (block.map key) rest') :
      AlikeWithout key next t (before ++ (block ++ rest)) (before ++ rest')

theorem AlikeWithout.of_without {before block : List α}
    (walk : Visits key next before [t] (before ++ block)) (h : before ++ block <+: out)
    (h' : before <+: out')
    (same : without key (block.map key) out = without key (block.map key) out') :
    AlikeWithout key next t out out' := by
  obtain ⟨rest, rfl⟩ := h
  obtain ⟨rest', rfl⟩ := h'
  rw [List.append_assoc]
  refine .apart walk ?_
  have gone : without key (block.map key) block = [] :=
    without_eq_nil fun b hb => List.mem_map_of_mem hb
  simpa [gone] using same

/-- Whether a walk meets a node at another one or below it: from where it meets that one until it is
done with it. -/
def MeetsFrom (key : α → κ) (next : α → List α) (t : α) (out : List α) (u : α) : Prop :=
  ∃ before block rest, out = before ++ (block ++ rest) ∧
    Visits key next before [t] (before ++ block) ∧ u ∈ block

omit [DecidableEq κ] in
theorem MeetsFrom.mem {u : α} (h : MeetsFrom key next t out u) : u ∈ out := by
  obtain ⟨before, block, rest, rfl, -, hu⟩ := h
  exact List.mem_append_right _ (List.mem_append_left _ hu)

/-- The first result of a search is the same, or it comes from the node left out or from below. -/
theorem AlikeWithout.findSome?_eq_or {γ : Type u} {g : α → Option γ} {P : α → Prop}
    (h : AlikeWithout key next t out out') (inside : ∀ a ∈ out, P a) (inside' : ∀ a ∈ out', P a)
    (byKey : ∀ a b, P a → P b → key a = key b → g a = g b) :
    out'.findSome? g = out.findSome? g ∨
      ∃ u r, MeetsFrom key next t out u ∧ g u = some r ∧ out.findSome? g = some r := by
  cases h with
  | same => exact .inl rfl
  | @apart before block rest rest' walk others =>
    rw [List.findSome?_append, List.findSome?_append, List.findSome?_append]
    cases ahead : before.findSome? g with
    | some r => exact .inl rfl
    | none =>
      cases found : block.findSome? g with
      | some r =>
        obtain ⟨u, hu, result⟩ := List.exists_of_findSome?_eq_some found
        exact .inr ⟨u, r, ⟨before, block, rest, rfl, walk, hu⟩, result, rfl⟩
      | none =>
        -- Where nothing is found in the block, nothing is found in what has its keys.
        have skip {l : List α} (all : ∀ a ∈ l, P a) :
            l.findSome? g = (without key (block.map key) l).findSome? g := by
          induction l with
          | nil => rfl
          | cons a l ih =>
            obtain ⟨first, others⟩ := List.forall_mem_cons.1 all
            by_cases gone : key a ∈ block.map key
            · obtain ⟨b, hb, same⟩ := List.mem_map.1 gone
              have nothing : g a = none := by
                rw [← byKey b a (inside b (by simp [hb])) first same]
                exact List.findSome?_eq_none_iff.1 found b hb
              rw [without_cons_of_mem gone, List.findSome?_cons_of_isNone (by simp [nothing]),
                ih others]
            · rw [without_cons_of_notMem gone, List.findSome?_cons, List.findSome?_cons, ih others]
        have same := congrArg (List.findSome? g) others
        rw [← skip fun a ha => inside a (by simp [ha]), ← skip fun a ha => inside' a (by simp [ha])]
          at same
        exact .inl (by simp [same])

section Walk

variable (omits : ∀ a, Omits key t (next a) (next' a))
  (byKey : ∀ a b, key a = key b → next a = next b)

include omits

/-- Once the node has been met it does not matter where it is pending. -/
theorem Visits.eq_of_known (h : Visits key next met pending out)
    (h' : Visits key next' met pending' out') (known : key t ∈ met.map key)
    (others : DepthFirst.without key [key t] pending = DepthFirst.without key [key t] pending') :
    out = out' := by
  have noBlock : [] ⊆ [key t] := List.nil_subset _
  have walk := h.without noBlock (by simpa using known) (by simp)
  have walk' := h'.without noBlock (by simpa using known) (by simp)
  have below : (fun a => DepthFirst.without key [key t] (next a)) =
      fun a => DepthFirst.without key [key t] (next' a) := funext fun a => (omits a).without_eq
  have nothing (l : List α) : DepthFirst.without key [] l = l := by simp [DepthFirst.without]
  rw [below, others] at walk
  simpa only [nothing] using walk.unique walk'

include byKey

/-- Behind a block both walks meet the same outside the block. -/
theorem Visits.without_eq_of_block {before block mid mid' : List α}
    (walk : Visits key next before [t] (before ++ block))
    (apart : ((before ++ block).map key).Nodup)
    (h : Visits key next (before ++ mid) pending out)
    (h' : Visits key next' (before ++ mid') pending' out')
    (mids : DepthFirst.without key (block.map key) mid =
      DepthFirst.without key (block.map key) mid')
    (others : DepthFirst.without key [key t] pending = DepthFirst.without key [key t] pending') :
    DepthFirst.without key (block.map key) out = DepthFirst.without key (block.map key) out' := by
  have inside : block.map key ⊆ (before ++ block).map key := by
    rw [List.map_append]
    exact List.subset_append_right _ _
  have first : [key t] ⊆ (before ++ block).map key := by
    simpa using walk.key_mem_of_pending t (by simp)
  have closed : ∀ a, key a ∈ block.map key → ∀ b ∈ next a, key b ∈ (before ++ block).map key := by
    intro a ha b hb
    obtain ⟨c, hc, same⟩ := List.mem_map.1 ha
    rw [byKey a c same.symm] at hb
    rcases walk.closed c (List.mem_append_right _ hc) with old | below
    · rw [List.map_append, List.nodup_append] at apart
      exact absurd rfl (apart.2.2 _ (List.mem_map_of_mem old) _ (List.mem_map_of_mem hc))
    · exact below b hb
  have below : (fun a => DepthFirst.without key ((before ++ block).map key) (next a)) =
      fun a => DepthFirst.without key ((before ++ block).map key) (next' a) :=
    funext fun a => without_congr first (omits a).without_eq
  have closed' : ∀ a, key a ∈ block.map key → ∀ b ∈ next' a,
      key b ∈ (before ++ block).map key := by
    intro a ha b hb
    refine Classical.byContradiction fun outside => ?_
    have kept : b ∈ DepthFirst.without key ((before ++ block).map key) (next' a) :=
      List.mem_filter.2 ⟨hb, by simpa using outside⟩
    have same := congrFun below a
    simp only [without_eq_nil (closed a ha)] at same
    rw [← same] at kept
    cases kept
  have known (l : List α) : ∀ k ∈ (before ++ block).map key,
      k ∈ block.map key ∨ k ∈ (before ++ l).map key := by
    intro k hk
    rw [List.map_append, List.mem_append] at hk
    exact hk.symm.imp_right fun h => by
      rw [List.map_append]
      exact List.mem_append_left _ h
  have walk := h.without inside (known mid) closed
  have walk' := h'.without inside (known mid') closed'
  rw [below, without_congr first others, without_append, mids, ← without_append] at walk
  exact walk.unique walk'

/-- Where one walk meets the node next, the other one meets the same outside the block there. -/
theorem Visits.alikeWithout_of_here {mid : List α}
    (below : Visits key next (met ++ [t]) (next t) mid) (unmet : key t ∉ met.map key)
    (apart : (mid.map key).Nodup) (rest : Visits key next mid pending out)
    (h' : Visits key next' met pending' out')
    (others : DepthFirst.without key [key t] pending = DepthFirst.without key [key t] pending') :
    AlikeWithout key next t out out' := by
  obtain ⟨more, whole⟩ := below.met_isPrefix
  rw [List.append_assoc] at whole
  subst whole
  have walk : Visits key next met [t] (met ++ ([t] ++ more)) := .new unmet below .nil
  have start : Visits key next' (met ++ []) pending' out' := by rwa [List.append_nil]
  have mids : DepthFirst.without key (([t] ++ more).map key) ([t] ++ more) =
      DepthFirst.without key (([t] ++ more).map key) [] :=
    without_eq_nil fun b hb => List.mem_map_of_mem hb
  exact .of_without walk rest.met_isPrefix h'.met_isPrefix
    (walk.without_eq_of_block omits byKey apart rest start mids others)

/-- A walk that misses a node meets the same as the other one outside what that one meets at the
node and below it. -/
theorem Visits.alikeWithout (h : Visits key next met pending out) (apart : (met.map key).Nodup)
    (unmet : key t ∉ met.map key) (pend : Omits key t pending pending')
    (h' : Visits key next' met pending' out') : AlikeWithout key next t out out' := by
  induction h generalizing pending' out' with
  | nil =>
    cases pend
    exact h'.unique .nil ▸ .same _
  | @seen met a pending out known _ ih =>
    have step {m : List α} (pend : Omits key t pending m)
        (h' : Visits key next' met (a :: m) out') : AlikeWithout key next t out out' := by
      cases h' with
      | seen _ rest' => exact ih apart unmet pend rest'
      | new unknown _ _ => exact absurd known unknown
    cases pend with
    | same => exact step (.same _) h'
    | here => exact absurd known unmet
    | later _ pend => exact step pend h'
  | @new met a pending mid out unknown below rest ihBelow ihRest =>
    have apartBelow : ((met ++ [a]).map key).Nodup := by
      simpa [List.nodup_append] using
        ⟨apart, fun b hb same => unknown (same ▸ List.mem_map_of_mem hb)⟩
    have apartMid : (mid.map key).Nodup := below.nodup apartBelow
    have step {m : List α} (pend : Omits key t pending m)
        (h' : Visits key next' met (a :: m) out') : AlikeWithout key next t out out' := by
      cases h' with
      | seen known _ => exact absurd known unknown
      | @new _ _ _ mid' _ _ below' rest' =>
        -- Once the node is met both walks are the same.
        have afterwards (known : key t ∈ mid.map key) (same : mid = mid') :
            AlikeWithout key next t out out' := by
          subst same
          rw [rest.eq_of_known omits rest' known pend.without_eq]
          exact .same _
        by_cases itself : key a = key t
        · have here : key t ∈ (met ++ [a]).map key := by simp [itself]
          exact afterwards (below.key_mem_of_met here)
            (below.eq_of_known omits below' here (omits a).without_eq)
        · have unmetBelow : key t ∉ (met ++ [a]).map key := by
            simpa using ⟨by simpa using unmet, Ne.symm itself⟩
          have alike := ihBelow apartBelow unmetBelow (omits a) below'
          generalize same : mid = first at alike
          generalize same' : mid' = second at alike
          cases alike with
          | same =>
            by_cases known : key t ∈ mid.map key
            · exact afterwards known (same.trans same'.symm)
            · exact ihRest apartMid known pend (same.trans same'.symm ▸ rest')
          | @apart before block left left' walk others =>
            subst same same'
            rw [← List.append_assoc, List.map_append, List.nodup_append] at apartMid
            have mids : DepthFirst.without key (block.map key) (block ++ left) =
                DepthFirst.without key (block.map key) left' := by
              rw [without_append, without_eq_nil fun b hb => List.mem_map_of_mem hb, others]
              rfl
            refine .of_without walk ?_ ((List.prefix_append _ _).trans rest'.met_isPrefix)
              (walk.without_eq_of_block omits byKey apartMid.1 rest rest' mids pend.without_eq)
            refine List.IsPrefix.trans ?_ rest.met_isPrefix
            rw [← List.append_assoc]
            exact List.prefix_append _ _
    cases pend with
    | same => exact step (.same _) h'
    | later _ pend => exact step pend h'
    | here others => exact below.alikeWithout_of_here omits byKey unknown apartMid rest h' others

end Walk

end RobotAnalysis.DepthFirst
