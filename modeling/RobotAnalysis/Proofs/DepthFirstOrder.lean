import RobotAnalysis.DepthFirst
import RobotAnalysis.Sequence

/-!
# Depth-first order

`Visits` is the recursive walk: a new node is kept, then everything below it is visited, then the
nodes that wait behind it. All that is said about the order, the completeness and the origin of what
is collected is proved of this relation by induction on a walk; `collect` keeps one list of waiting
nodes instead of a stack of them, and is shown to be such a walk.
-/
namespace RobotAnalysis.DepthFirst

universe u w

variable {α : Type u} {κ : Type w}

/-- A walk that has met some nodes, visits the pending ones from left to right, each with what is
below it, and has then met the nodes in its last argument, in the order of their first visits. -/
inductive Visits (key : α → κ) (next : α → List α) : List α → List α → List α → Prop
  | nil {met : List α} : Visits key next met [] met
  | seen {met : List α} {a : α} {pending out : List α} (known : key a ∈ met.map key)
      (rest : Visits key next met pending out) : Visits key next met (a :: pending) out
  | new {met : List α} {a : α} {pending mid out : List α} (unknown : key a ∉ met.map key)
      (below : Visits key next (met ++ [a]) (next a) mid) (rest : Visits key next mid pending out) :
      Visits key next met (a :: pending) out

variable {key : α → κ} {next : α → List α} {met pending waiting out out' : List α}

namespace Visits

/-- A walk leaves nothing to choose. -/
theorem unique (h : Visits key next met pending out) (h' : Visits key next met pending out') :
    out = out' := by
  induction h generalizing out' with
  | nil => cases h'; rfl
  | seen known _ ih =>
    cases h' with
    | seen _ rest' => exact ih rest'
    | new unknown _ _ => exact absurd known unknown
  | new unknown _ _ ihBelow ihRest =>
    cases h' with
    | seen known _ => exact absurd known unknown
    | new _ below' rest' =>
      cases ihBelow below'
      exact ihRest rest'

/-- What has been met stays in front. -/
theorem met_isPrefix (h : Visits key next met pending out) : met <+: out := by
  induction h with
  | nil => exact List.prefix_rfl
  | seen _ _ ih => exact ih
  | new _ _ _ ihBelow ihRest => exact ((List.prefix_append _ _).trans ihBelow).trans ihRest

theorem key_mem_of_met (h : Visits key next met pending out) {k : κ} (hk : k ∈ met.map key) :
    k ∈ out.map key :=
  (h.met_isPrefix.map key).subset hk

theorem nodup (h : Visits key next met pending out) (apart : (met.map key).Nodup) :
    (out.map key).Nodup := by
  induction h with
  | nil => exact apart
  | seen _ _ ih => exact ih apart
  | new unknown _ _ ihBelow ihRest =>
    apply ihRest
    apply ihBelow
    rw [List.map_append, List.map_singleton, List.nodup_append]
    refine ⟨apart, by simp, ?_⟩
    intro k hk l hl same
    rw [List.mem_singleton] at hl
    exact unknown (hl ▸ same ▸ hk)

/-- Every pending node is met. -/
theorem key_mem_of_pending (h : Visits key next met pending out) :
    ∀ a ∈ pending, key a ∈ out.map key := by
  induction h with
  | nil => simp
  | seen known rest ih =>
    intro b hb
    rcases List.mem_cons.1 hb with rfl | hb
    · exact rest.key_mem_of_met known
    · exact ih b hb
  | new _ below rest _ ihRest =>
    intro b hb
    rcases List.mem_cons.1 hb with rfl | hb
    · exact rest.key_mem_of_met (below.key_mem_of_met (by simp))
    · exact ihRest b hb

/-- Every node that the walk adds has all its neighbours met, also those that were skipped because
something had met them before. -/
theorem closed (h : Visits key next met pending out) :
    ∀ a ∈ out, a ∈ met ∨ ∀ b ∈ next a, key b ∈ out.map key := by
  induction h with
  | nil => exact fun a ha => .inl ha
  | seen _ _ ih => exact ih
  | @new met a _ mid _ _ below rest ihBelow ihRest =>
    intro b hb
    rcases ihRest b hb with hmid | hout
    · rcases ihBelow b hmid with hmet | hclosed
      · rcases List.mem_append.1 hmet with hmet | hnew
        · exact .inl hmet
        · cases List.mem_singleton.1 hnew
          exact .inr fun c hc => rest.key_mem_of_met (below.key_mem_of_pending c hc)
      · exact .inr fun c hc => rest.key_mem_of_met (hclosed c hc)
    · exact .inr hout

/-- What holds of the nodes at the start and of the neighbours of every node that it holds of, holds
of everything that is met. -/
theorem forall_mem (h : Visits key next met pending out) {P : α → Prop}
    (step : ∀ a, P a → ∀ b ∈ next a, P b) (atMet : ∀ a ∈ met, P a)
    (atPending : ∀ a ∈ pending, P a) : ∀ a ∈ out, P a := by
  induction h with
  | nil => exact atMet
  | seen _ _ ih => exact ih atMet fun a ha => atPending a (List.mem_cons_of_mem _ ha)
  | @new met a pending mid _ _ _ _ ihBelow ihRest =>
    have here : P a := atPending a List.mem_cons_self
    have atMid : ∀ b ∈ mid, P b := by
      refine ihBelow (fun b hb => ?_) (step a here)
      rcases List.mem_append.1 hb with hb | hb
      · exact atMet b hb
      · exact List.mem_singleton.1 hb ▸ here
    exact ihRest atMid fun b hb => atPending b (List.mem_cons_of_mem _ hb)

/-- A walk stays what it is where the same lies below everything that it meets. -/
theorem congr {next' : α → List α} (h : Visits key next met pending out)
    (same : ∀ a ∈ out, next' a = next a) : Visits key next' met pending out := by
  induction h with
  | nil => exact .nil
  | seen known _ ih => exact .seen known (ih same)
  | @new met a _ mid out unknown below rest ihBelow ihRest =>
    have here : a ∈ out := (below.met_isPrefix.trans rest.met_isPrefix).subset (by simp)
    have atMid : ∀ b ∈ mid, next' b = next b := fun b hb => same b (rest.met_isPrefix.subset hb)
    refine .new unknown ?_ (ihRest same)
    rw [same a here]
    exact ihBelow atMid

/-- A walk over two lists is a walk over the first one and then over the second one. -/
theorem exists_of_append (h : Visits key next met (pending ++ waiting) out) :
    ∃ mid, Visits key next met pending mid ∧ Visits key next mid waiting out := by
  induction pending generalizing met with
  | nil => exact ⟨met, .nil, h⟩
  | cons a pending ih =>
    cases h with
    | seen known rest =>
      obtain ⟨mid, front, back⟩ := ih rest
      exact ⟨mid, .seen known front, back⟩
    | new unknown below rest =>
      obtain ⟨mid, front, back⟩ := ih rest
      exact ⟨mid, .new unknown below front, back⟩

/-- A walk that starts with at most one node and follows nothing has met just that node. -/
theorem eq_toList {o : Option α} (h : Visits key (fun _ => []) [] o.toList out) :
    out = o.toList := by
  cases o with
  | none => cases h; rfl
  | some a =>
    cases h with
    | seen known _ => simp at known
    | new _ below rest =>
      cases below
      cases rest
      rfl

end Visits

variable [DecidableEq κ]

/-- Collecting is a walk where nothing lies below the nodes outside the domain. -/
theorem collect_visits {domain : List κ} (leaf : ∀ a, key a ∉ domain → next a = []) :
    Visits key next met pending (collect key domain next met pending) := by
  induction met, pending using collect.induct key domain next with
  | case1 met => rw [collect]; exact .nil
  | case2 met a pending seen ih =>
    rw [collect, dif_pos seen]
    exact .seen seen ih
  | case3 met a pending unseen inside ih =>
    rw [collect, dif_neg unseen, dif_pos inside]
    obtain ⟨mid, below, rest⟩ := ih.exists_of_append
    exact .new unseen below rest
  | case4 met a pending unseen outside ih =>
    rw [collect, dif_neg unseen, dif_neg outside]
    refine .new unseen ?_ ih
    rw [leaf a outside]
    exact .nil

theorem select_visits {seen : List κ} (same : ∀ k, k ∈ seen ↔ k ∈ met.map key) :
    Visits key (fun _ => []) met pending (met ++ Sequence.distinctBy.select key seen pending) := by
  induction pending generalizing met seen with
  | nil => rw [Sequence.distinctBy.select, List.append_nil]; exact .nil
  | cons a pending ih =>
    rw [Sequence.distinctBy.select]
    by_cases known : key a ∈ seen
    · rw [if_pos known]
      exact .seen ((same _).1 known) (ih same)
    · rw [if_neg known]
      refine .new (fun h => known ((same _).2 h)) .nil ?_
      have same' : ∀ k, k ∈ key a :: seen ↔ k ∈ (met ++ [a]).map key := by
        intro k
        simp [same k, or_comm]
      simpa using ih same'

/-- Leaving out repeated elements is a walk that follows nothing. -/
theorem distinctBy_visits :
    Visits key (fun _ => []) [] pending (Sequence.distinctBy key pending) := by
  have nothing : ∀ k, k ∈ [] ↔ k ∈ ([] : List α).map key := by simp
  exact select_visits nothing

end RobotAnalysis.DepthFirst
