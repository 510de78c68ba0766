import Mathlib.Data.List.Perm.Basic
import Mathlib.Logic.Function.Basic
import PerfMonitor.Foundation.Run

/-!
# Programs run by several threads

Every thread has a list of actions to perform in order.  One turn performs the next
action of one thread.  Whatever the order of the turns, what a thread has performed and
what it has still to perform make up its program.
-/

namespace PerfMonitor
namespace Foundation

structure Interleaving (ι β : Type*) where
  remaining : ι -> List β
  performed : List (ι × β) := []

namespace Interleaving

variable {ι β : Type*} [DecidableEq ι]

def turn (s : Interleaving ι β) (t : ι) : Interleaving ι β :=
  match s.remaining t with
  | [] => s
  | b :: rest =>
      { remaining := Function.update s.remaining t rest
        performed := s.performed ++ [(t, b)] }

def performedBy (s : Interleaving ι β) (t : ι) : List β :=
  (s.performed.filter (fun p => decide (p.1 = t))).map Prod.snd

def Finished (s : Interleaving ι β) : Prop :=
  forall t, s.remaining t = []

theorem turn_of_nil {s : Interleaving ι β} {t : ι} (h : s.remaining t = []) : s.turn t = s := by
  unfold turn
  rw [h]

theorem turn_of_cons {s : Interleaving ι β} {t : ι} {b : β} {rest : List β}
    (h : s.remaining t = b :: rest) :
    s.turn t =
      { remaining := Function.update s.remaining t rest
        performed := s.performed ++ [(t, b)] } := by
  unfold turn
  rw [h]

def program (s : Interleaving ι β) (t : ι) : List β :=
  s.performedBy t ++ s.remaining t

theorem program_turn (s : Interleaving ι β) (t t' : ι) :
    (s.turn t).program t' = s.program t' := by
  cases h : s.remaining t with
  | nil => rw [turn_of_nil h]
  | cons b rest =>
      rw [turn_of_cons h]
      show ((s.performed ++ [(t, b)]).filter _).map Prod.snd ++
        Function.update s.remaining t rest t' = s.performedBy t' ++ s.remaining t'
      rw [List.filter_append, List.map_append]
      by_cases ht : t' = t
      · subst ht
        rw [h, Function.update_self]
        simp [performedBy]
      · rw [Function.update_of_ne ht]
        simp [performedBy, Ne.symm ht]

theorem performedBy_of_finished {s : Interleaving ι β} (h : s.Finished) (t : ι) :
    s.performedBy t = s.program t := by
  unfold program
  rw [h t, List.append_nil]

theorem perm_flatMap_filter {threads : List ι} (hnodup : threads.Nodup) {tagged : List (ι × β)}
    (htags : forall p, p ∈ tagged -> p.1 ∈ threads) :
    tagged.Perm (threads.flatMap (fun t => tagged.filter (fun p => decide (p.1 = t)))) := by
  induction threads generalizing tagged with
  | nil =>
      have hnil : tagged = [] := by
        apply List.eq_nil_iff_forall_not_mem.mpr
        intro p hp
        cases htags p hp
      rw [hnil]
      exact List.Perm.nil
  | cons t rest ih =>
      have hnotMem := (List.nodup_cons.mp hnodup).left
      have hsplit := (List.filter_append_perm (fun p => decide (p.1 = t)) tagged).symm
      have hrestTags : forall p, p ∈ tagged.filter (fun p => !decide (p.1 = t)) ->
          p.1 ∈ rest := by
        intro p hp
        have hp := List.mem_filter.mp hp
        have hne : p.1 ≠ t := by simpa using hp.right
        exact (List.mem_cons.mp (htags p hp.left)).resolve_left hne
      have hothers := ih (List.nodup_cons.mp hnodup).right hrestTags
      have hsame : rest.flatMap (fun t' =>
            (tagged.filter (fun p => !decide (p.1 = t))).filter (fun p => decide (p.1 = t'))) =
          rest.flatMap (fun t' => tagged.filter (fun p => decide (p.1 = t'))) := by
        apply List.flatMap_congr
        intro t' ht'
        rw [List.filter_filter]
        apply List.filter_congr
        intro p _hp
        by_cases hp : p.1 = t'
        · have hne : t' ≠ t := by
            intro heq
            rw [heq] at ht'
            exact hnotMem ht'
          simp [hp, hne]
        · simp [hp]
      rw [hsame] at hothers
      exact hsplit.trans (hothers.append_left _)

end Interleaving

end Foundation
end PerfMonitor
