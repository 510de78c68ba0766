import Mathlib.Logic.Function.Iterate
import PerfMonitor.Foundation.Run

/-!
# Agents on separate regions of a memory

Every place of a memory belongs to one agent.  An agent changes only its own places, and
what it does depends on nothing else in the memory.  Then the order of the turns does not
matter: an agent, and the places that belong to it, end as if it had run alone.
-/

namespace PerfMonitor
namespace Foundation

structure Shared (ι L M : Type*) where
  locals : ι -> L
  memory : M

namespace Regions

variable {ι L M Loc V : Type*}

def AgreeOn (look : M -> Loc -> V) (region : Loc -> ι) (i : ι) (m m' : M) : Prop :=
  forall loc, region loc = i -> look m loc = look m' loc

section

variable (act : ι -> L -> M -> L × M) (look : M -> Loc -> V) (region : Loc -> ι)

/-- What holds of an agent's own state (`good`) keeps it on its own places. -/
structure Separate (good : ι -> L -> Prop) : Prop where
  keeps : forall i l m, good i l -> good i (act i l m).1
  frame : forall i l m, good i l -> forall loc, region loc ≠ i ->
    look (act i l m).2 loc = look m loc
  own : forall i l m m', good i l -> AgreeOn look region i m m' ->
    (act i l m).1 = (act i l m').1 ∧ AgreeOn look region i (act i l m).2 (act i l m').2

def alone (i : ι) (n : Nat) (start : L × M) : L × M :=
  (fun p => act i p.1 p.2)^[n] start

variable [DecidableEq ι]

def turn (s : Shared ι L M) (i : ι) : Shared ι L M where
  locals := Function.update s.locals i (act i (s.locals i) s.memory).1
  memory := (act i (s.locals i) s.memory).2

variable {act look region} {good : ι -> L -> Prop}

omit [DecidableEq ι] in
theorem alone_of_rest {i : ι} {p q : L × M} {n k : Nat} (hrest : alone act i k p = q)
    (hfixed : act i q.1 q.2 = q) (hle : k ≤ n) : alone act i n p = q := by
  rw [← Nat.sub_add_cancel hle]
  unfold alone at hrest ⊢
  rw [Function.iterate_add_apply, hrest]
  exact Function.iterate_fixed hfixed _

theorem Separate.run (h : Separate act look region good) {s : Shared ι L M}
    (hgood : forall i, good i (s.locals i)) (i : ι) {p : L × M} (hlocal : s.locals i = p.1)
    (hagree : AgreeOn look region i s.memory p.2) (turns : List ι) :
    (runFrom (turn act) s turns).locals i = (alone act i (turns.count i) p).1 ∧
      AgreeOn look region i (runFrom (turn act) s turns).memory
        (alone act i (turns.count i) p).2 := by
  induction turns generalizing s p with
  | nil => exact ⟨hlocal, hagree⟩
  | cons j rest ih =>
      have hkeeps : forall k, good k ((turn act s j).locals k) := by
        intro k
        by_cases hk : k = j
        · rw [hk]
          show good j (Function.update s.locals j _ j)
          rw [Function.update_self]
          exact h.keeps j _ _ (hgood j)
        · show good k (Function.update s.locals j _ k)
          rw [Function.update_of_ne hk]
          exact hgood k
      rw [runFrom_cons]
      by_cases hj : j = i
      · subst hj
        rcases h.own j (s.locals j) s.memory p.2 (hgood j) hagree with ⟨hsame, hplaces⟩
        rw [List.count_cons_self]
        have hstep := ih hkeeps (p := act j p.1 p.2)
          (by
            show Function.update s.locals j _ j = _
            rw [Function.update_self, hsame, hlocal])
          (by
            rw [← hlocal]
            exact hplaces)
        exact hstep
      · rw [List.count_cons_of_ne hj]
        apply ih hkeeps
        · show Function.update s.locals j _ i = _
          rw [Function.update_of_ne (fun heq => hj heq.symm)]
          exact hlocal
        · intro loc hloc
          rw [← hagree loc hloc]
          exact h.frame j (s.locals j) s.memory (hgood j) loc (fun heq => hj (heq.symm.trans hloc))

end

end Regions

end Foundation
end PerfMonitor
