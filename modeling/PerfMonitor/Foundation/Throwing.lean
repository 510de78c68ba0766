import Mathlib.Data.List.ReduceOption

/-!
# Statements that may throw

A sequence of statements on a state, each of which either throws or updates the
state.  Whether a statement throws does not depend on the state.  The first throw
ends the sequence, and what was done before stays.
-/

namespace PerfMonitor
namespace Foundation

section Throwing

variable {σ α β : Type*}

def perform : List (Option (σ -> σ)) -> σ -> Bool × σ
  | [], s => (true, s)
  | none :: _, s => (false, s)
  | some f :: rest, s => perform rest (f s)

def effect (statements : List (Option (σ -> σ))) (s : σ) : σ :=
  statements.reduceOption.foldl (fun s f => f s) s

theorem perform_true_iff {statements : List (Option (σ -> σ))} {s : σ} :
    (perform statements s).1 = true <-> forall x, x ∈ statements -> x.isSome = true := by
  induction statements generalizing s with
  | nil => exact ⟨fun _ x hx => absurd hx List.not_mem_nil, fun _ => rfl⟩
  | cons first rest ih =>
      cases first with
      | none =>
          constructor
          · intro h
            cases h
          · intro h
            cases h none List.mem_cons_self
      | some f =>
          rw [List.forall_mem_cons]
          exact ⟨fun h => ⟨rfl, ih.mp h⟩, fun h => ih.mpr h.right⟩

theorem perform_eq_effect {statements : List (Option (σ -> σ))} {s : σ}
    (h : (perform statements s).1 = true) : (perform statements s).2 = effect statements s := by
  induction statements generalizing s with
  | nil => rfl
  | cons first rest ih =>
      cases first with
      | none => cases h
      | some f => exact ih h

theorem perform_fst_eq (statements : List (Option (σ -> σ))) (s s' : σ) :
    (perform statements s).1 = (perform statements s').1 := by
  rw [Bool.eq_iff_iff, perform_true_iff, perform_true_iff]

theorem effect_append (first second : List (Option (σ -> σ))) (s : σ) :
    effect (first ++ second) s = effect second (effect first s) := by
  unfold effect
  rw [List.reduceOption_append, List.foldl_append]

theorem effect_cons_some (f : σ -> σ) (rest : List (Option (σ -> σ))) (s : σ) :
    effect (some f :: rest) s = effect rest (f s) := by
  unfold effect
  rw [List.reduceOption_cons_of_some]
  rfl

def assign (value : Option α) (convert : α -> Option β) (set : β -> σ -> σ) :
    List (Option (σ -> σ)) :=
  match value with
  | none => []
  | some v => [(convert v).map set]

theorem effect_assign {set : β -> σ -> σ} (get : σ -> β) (hset : forall s, set (get s) s = s)
    (value : Option α) (convert : α -> Option β) (s : σ) :
    effect (assign value convert set) s = set ((value.bind convert).getD (get s)) s := by
  cases value with
  | none => exact (hset s).symm
  | some v =>
      show effect [(convert v).map set] s = set ((convert v).getD (get s)) s
      cases convert v with
      | none => exact (hset s).symm
      | some b => rfl

theorem isSome_bind_of_assign {value : Option α} {convert : α -> Option β} {set : β -> σ -> σ}
    (h : forall x, x ∈ assign value convert set -> x.isSome = true) :
    (value.bind convert).isSome = value.isSome := by
  cases value with
  | none => rfl
  | some v =>
      have hset := h _ List.mem_cons_self
      rw [Option.isSome_map] at hset
      exact hset

theorem assign_isSome_iff {value : Option α} {convert : α -> Option β} {set : β -> σ -> σ} :
    (forall x, x ∈ assign value convert set -> x.isSome = true) <->
      forall v, value = some v -> (convert v).isSome = true := by
  cases value with
  | none =>
      constructor
      · intro _ v hv
        cases hv
      · intro _ x hx
        cases hx
  | some v =>
      show (forall x, x ∈ [(convert v).map set] -> x.isSome = true) <-> _
      rw [List.forall_mem_singleton, Option.isSome_map]
      constructor
      · intro h v' hv'
        injection hv' with hv'
        rw [← hv']
        exact h
      · intro h
        exact h v rfl

theorem push_isSome_iff {push : β -> σ -> σ} {convert : α -> Option β} {items : List α} :
    (forall x, x ∈ items.map (fun item => (convert item).map push) -> x.isSome = true) <->
      forall item, item ∈ items -> (convert item).isSome = true := by
  rw [List.forall_mem_map]
  simp only [Option.isSome_map]

theorem effect_push {push : β -> σ -> σ} (pushAll : List β -> σ -> σ)
    (hnil : forall s, pushAll [] s = s)
    (hcons : forall b rest s, pushAll (b :: rest) s = pushAll rest (push b s))
    (convert : α -> Option β) (items : List α) (s : σ) :
    effect (items.map (fun item => (convert item).map push)) s =
      pushAll (items.filterMap convert) s := by
  induction items generalizing s with
  | nil => exact (hnil s).symm
  | cons item rest ih =>
      rw [List.map_cons]
      cases hitem : convert item with
      | none =>
          rw [List.filterMap_cons_none hitem]
          exact ih s
      | some b =>
          rw [List.filterMap_cons_some hitem, hcons, Option.map_some, effect_cons_some]
          exact ih (push b s)

theorem getD_bind_eq_iff {value : Option α} {convert : α -> Option β} {b b' : β}
    (h : (value.bind convert).isSome = value.isSome) :
    (value.bind convert).getD b = (value.bind convert).getD b' <->
      value.isSome = true ∨ b = b' := by
  rw [← h]
  cases value.bind convert with
  | none => simp
  | some x => simp

end Throwing

end Foundation
end PerfMonitor
