import Mathlib.Data.List.Basic

/-!
# Reading a directory that changes

A directory is read in portions from increasing positions, and the reader acts on each
entry before the next portion is read.  As long as an action does not touch the entries at
later positions, the size of the portions does not matter: the reader acts on what was
listed at the beginning.
-/

namespace PerfMonitor
namespace Foundation
namespace Listing

variable {σ α : Type*} (listing : σ -> List (Nat × α)) (visit : σ -> α -> σ)

def entriesFrom (s : σ) (pos : Nat) : List (Nat × α) :=
  (listing s).filter (fun e => decide (pos ≤ e.1))

def visitAll (s : σ) (portion : List (Nat × α)) : σ :=
  portion.foldl (fun s e => visit s e.2) s

/-- Read portions until one is empty; `room` bounds the size of each, and `fuel` their
number. -/
def drain (room : Nat -> Nat) : Nat -> σ -> Nat -> Option σ
  | 0, _, _ => none
  | fuel + 1, s, pos =>
      match (entriesFrom listing s pos).take (room fuel + 1) with
      | [] => some s
      | e :: rest =>
          drain room fuel (visitAll visit s (e :: rest)) (((e :: rest).getLast?.getD e).1 + 1)

structure Stable (inv : σ -> Prop) (bound : Nat) : Prop where
  sorted : forall s, inv s -> (listing s).Pairwise (fun e e' => e.1 < e'.1)
  bounded : forall s, inv s -> forall e, e ∈ listing s -> e.1 < bound
  keeps : forall s, inv s -> forall e, e ∈ listing s -> inv (visit s e.2)
  ahead : forall s, inv s -> forall e, e ∈ listing s -> forall pos, e.1 < pos ->
    entriesFrom listing (visit s e.2) pos = entriesFrom listing s pos

variable {listing visit} {inv : σ -> Prop} {bound : Nat}

theorem mem_entriesFrom {s : σ} {pos : Nat} {e : Nat × α} :
    e ∈ entriesFrom listing s pos <-> e ∈ listing s ∧ pos ≤ e.1 := by
  unfold entriesFrom
  rw [List.mem_filter, decide_eq_true_iff]

theorem Stable.ahead_all (h : Stable listing visit inv bound) {portion : List (Nat × α)} {s : σ}
    (hs : inv s) (hmem : forall e, e ∈ portion -> e ∈ listing s)
    (hsorted : portion.Pairwise (fun e e' => e.1 < e'.1)) {pos : Nat}
    (hpos : forall e, e ∈ portion -> e.1 < pos) :
    inv (visitAll visit s portion) ∧
      entriesFrom listing (visitAll visit s portion) pos = entriesFrom listing s pos := by
  induction portion generalizing s with
  | nil => exact ⟨hs, rfl⟩
  | cons e rest ih =>
      rw [List.pairwise_cons] at hsorted
      have he := hmem e List.mem_cons_self
      have hfirst := h.ahead s hs e he
      have hrest : forall e', e' ∈ rest -> e' ∈ listing (visit s e.2) := by
        intro e' he'
        have hbehind : e' ∈ entriesFrom listing s (e.1 + 1) :=
          mem_entriesFrom.mpr ⟨hmem e' (List.mem_cons_of_mem _ he'), hsorted.left e' he'⟩
        rw [← hfirst (e.1 + 1) (Nat.lt_succ_self _)] at hbehind
        exact (mem_entriesFrom.mp hbehind).left
      have hlater := ih (h.keeps s hs e he) hrest hsorted.right
        (fun e' he' => hpos e' (List.mem_cons_of_mem _ he'))
      exact ⟨hlater.left, hlater.right.trans (hfirst pos (hpos e List.mem_cons_self))⟩

theorem Stable.entriesFrom_last (h : Stable listing visit inv bound) {s : σ} (hs : inv s)
    {pos : Nat} {front rest : List (Nat × α)} {last : Nat × α}
    (hsplit : entriesFrom listing s pos = front ++ last :: rest) :
    entriesFrom listing s (last.1 + 1) = rest := by
  have hsorted : (front ++ last :: rest).Pairwise (fun e e' => e.1 < e'.1) := by
    rw [← hsplit]
    exact (h.sorted s hs).filter _
  have hlast : last ∈ entriesFrom listing s pos := by
    rw [hsplit]
    exact List.mem_append_right _ List.mem_cons_self
  have hagain : entriesFrom listing s (last.1 + 1) =
      (entriesFrom listing s pos).filter (fun e => decide (last.1 + 1 ≤ e.1)) := by
    unfold entriesFrom
    rw [List.filter_filter]
    apply List.filter_congr
    intro e _he
    have hle := (mem_entriesFrom.mp hlast).right
    by_cases hbehind : last.1 + 1 ≤ e.1
    · simp [hbehind, Nat.le_trans hle (Nat.le_of_lt hbehind)]
    · simp [hbehind]
  rw [hagain, hsplit, List.filter_append, List.filter_cons]
  rcases List.pairwise_append.mp hsorted with ⟨_, hbehind, hcross⟩
  rw [List.pairwise_cons] at hbehind
  have hfront : front.filter (fun e => decide (last.1 + 1 ≤ e.1)) = [] := by
    rw [List.filter_eq_nil_iff]
    intro e he
    have hlt := hcross e he last List.mem_cons_self
    simp only [decide_eq_true_eq]
    omega
  have hrest : rest.filter (fun e => decide (last.1 + 1 ≤ e.1)) = rest := by
    rw [List.filter_eq_self]
    intro e he
    exact decide_eq_true (hbehind.left e he)
  rw [hfront, hrest, if_neg (by simp), List.nil_append]

theorem Stable.portion (h : Stable listing visit inv bound) {s : σ} (hs : inv s) {pos : Nat}
    {front rest : List (Nat × α)} {last : Nat × α}
    (hsplit : entriesFrom listing s pos = front ++ last :: rest) :
    inv (visitAll visit s (front ++ [last])) ∧
      entriesFrom listing (visitAll visit s (front ++ [last])) (last.1 + 1) = rest ∧
      pos ≤ last.1 ∧ last.1 < bound := by
  have hparts : entriesFrom listing s pos = (front ++ [last]) ++ rest := by
    rw [hsplit, List.append_assoc]
    rfl
  have hmem : forall e, e ∈ front ++ [last] -> e ∈ listing s ∧ pos ≤ e.1 := by
    intro e he
    apply mem_entriesFrom.mp
    rw [hparts]
    exact List.mem_append_left _ he
  have hsorted : (front ++ [last]).Pairwise (fun e e' => e.1 < e'.1) := by
    have hall := (h.sorted s hs).filter (fun e => decide (pos ≤ e.1))
    change (entriesFrom listing s pos).Pairwise _ at hall
    rw [hparts] at hall
    exact (List.pairwise_append.mp hall).left
  have hbehind : forall e, e ∈ front ++ [last] -> e.1 < last.1 + 1 := by
    intro e he
    rcases List.mem_append.mp he with hfront | hlast
    · have hcross := (List.pairwise_append.mp hsorted).right.right
      exact Nat.lt_succ_of_lt (hcross e hfront last List.mem_cons_self)
    · rw [List.mem_singleton.mp hlast]
      exact Nat.lt_succ_self _
  have hlast := hmem last (List.mem_append_right _ List.mem_cons_self)
  rcases h.ahead_all hs (fun e he => (hmem e he).left) hsorted hbehind with ⟨hinv, hahead⟩
  rw [hahead, h.entriesFrom_last hs hsplit]
  exact ⟨hinv, rfl, hlast.right, h.bounded s hs last hlast.left⟩

/-- However the directory is read, the reader ends and has acted on every entry that was
listed at the beginning. -/
theorem Stable.drain_eq (h : Stable listing visit inv bound) (room : Nat -> Nat) {fuel : Nat}
    {s : σ} (hs : inv s) {pos : Nat} (hfuel : bound - pos < fuel) :
    drain listing visit room fuel s pos = some (visitAll visit s (entriesFrom listing s pos)) := by
  induction fuel generalizing s pos with
  | zero => exact absurd hfuel (Nat.not_lt_zero _)
  | succ fuel ih =>
      have hsplit := List.take_append_drop (room fuel + 1) (entriesFrom listing s pos)
      rw [drain]
      cases hportion : (entriesFrom listing s pos).take (room fuel + 1) with
      | nil =>
          rcases List.take_eq_nil_iff.mp hportion with hzero | hnil
          · cases hzero
          · rw [hnil]
            rfl
      | cons e others =>
          rcases List.eq_nil_or_concat (e :: others) with hnil | ⟨front, last, hconcat⟩
          · cases hnil
          · rw [List.concat_eq_append] at hconcat
            rw [hportion, hconcat, List.append_assoc, List.singleton_append] at hsplit
            rcases h.portion hs hsplit.symm with ⟨hinv, hrest, hpos, hbound⟩
            show drain listing visit room fuel (visitAll visit s (e :: others))
              (((e :: others).getLast?.getD e).1 + 1) = _
            rw [hconcat, List.getLast?_concat, Option.getD_some, ih hinv (by omega), hrest]
            conv_rhs => rw [← hsplit]
            unfold visitAll
            rw [← List.foldl_append, List.append_assoc]
            rfl

end Listing
end Foundation
end PerfMonitor
