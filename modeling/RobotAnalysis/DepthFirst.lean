/-!
# Depth-first collection

Collects what is reachable from some nodes in the order of a depth-first walk, each node once. Nodes
are told apart by a key, and only nodes whose key lies in a finite domain are followed further, so
the walk ends on every graph, cycles included: each node followed leaves one key less of the domain
to be met.
-/
namespace RobotAnalysis.DepthFirst

universe u v w

variable {α : Type u} {κ : Type w} [DecidableEq κ]

/-- The keys of the domain that have not been met. -/
def unmet (key : α → κ) (domain : List κ) (met : List α) : List κ :=
  domain.filter fun k => !(met.map key).contains k

theorem unmet_append_of_notMem {key : α → κ} {domain : List κ} {met : List α} {a : α}
    (h : key a ∉ domain) : unmet key domain (met ++ [a]) = unmet key domain met := by
  apply List.filter_congr
  intro k hk
  have : k ≠ key a := fun e => h (e ▸ hk)
  simp [this]

theorem length_unmet_append_lt {key : α → κ} {domain : List κ} {met : List α} {a : α}
    (h : key a ∈ domain) (new : key a ∉ met.map key) :
    (unmet key domain (met ++ [a])).length < (unmet key domain met).length := by
  have shrink : unmet key domain (met ++ [a]) =
      (unmet key domain met).filter fun k => k != key a := by
    simp only [unmet, List.filter_filter]
    apply List.filter_congr
    intro k _
    by_cases e : k = key a <;> simp [e]
  rw [shrink]
  have here : key a ∈ unmet key domain met := by
    simpa [unmet] using ⟨h, by simpa using new⟩
  exact List.length_filter_lt_length_iff_exists.2 ⟨key a, here, by simp⟩

/-- What has been met, followed by what is reachable from the pending nodes in the order in which a
depth-first walk meets it. -/
def collect (key : α → κ) (domain : List κ) (next : α → List α) (met : List α) :
    List α → List α
  | [] => met
  | a :: pending =>
    if _seen : key a ∈ met.map key then collect key domain next met pending
    else if _inside : key a ∈ domain then
      collect key domain next (met ++ [a]) (next a ++ pending)
    else collect key domain next (met ++ [a]) pending
termination_by pending => ((unmet key domain met).length, pending.length)
decreasing_by
  · exact Prod.Lex.right _ (by simp)
  · exact Prod.Lex.left _ _ (length_unmet_append_lt _inside _seen)
  · rw [unmet_append_of_notMem _inside]
    exact Prod.Lex.right _ (by simp)

/-- The same walk where the neighbours of a node have to be looked up. -/
def collectM {m : Type u → Type v} [Monad m] (key : α → κ) (domain : List κ)
    (next : α → m (List α)) (met : List α) : List α → m (List α)
  | [] => pure met
  | a :: pending =>
    if _seen : key a ∈ met.map key then collectM key domain next met pending
    else if _inside : key a ∈ domain then do
      let neighbours ← next a
      collectM key domain next (met ++ [a]) (neighbours ++ pending)
    else collectM key domain next (met ++ [a]) pending
termination_by pending => ((unmet key domain met).length, pending.length)
decreasing_by
  · exact Prod.Lex.right _ (by simp)
  · exact Prod.Lex.left _ _ (length_unmet_append_lt _inside _seen)
  · rw [unmet_append_of_notMem _inside]
    exact Prod.Lex.right _ (by simp)

end RobotAnalysis.DepthFirst
