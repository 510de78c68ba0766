import Mathlib.Data.List.Basic

/-!
# Lists separated by commas

A reader that loops over the items of a list, up to a closing text, on a list that
was written item by item.  How the loop meets one item, with a comma or the closing
text after it, is what has to be shown for each kind of item; how it then reads the
whole list follows by one induction.
-/

namespace PerfMonitor
namespace Foundation

structure Item (α : Type*) where
  text : List Char
  value : α
  ok : Prop

def separated {α : Type*} (p : Item α) : List (Item α) -> List Char
  | [] => p.text
  | q :: rest => p.text ++ ',' :: separated q rest

section Loops

variable {α : Type*} (loop : Nat -> List Char -> Option (List α × List Char))
  (closing : List Char)

structure Item.ReadBy (p : Item α) : Prop where
  sound_comma : forall {fuel : Nat} {next rest : List Char} {values : List α},
    loop fuel (p.text ++ ',' :: next) = some (p.value :: values, rest) ->
      p.ok ∧ exists fuel', loop fuel' next = some (values, rest)
  sound_closing : forall {fuel : Nat} {rest rest' : List Char},
    loop fuel (p.text ++ (closing ++ rest)) = some ([p.value], rest') -> p.ok ∧ rest' = rest
  complete_comma : p.ok -> forall {fuel : Nat} {next rest : List Char} {values : List α},
    p.text.length < fuel -> loop fuel next = some (values, rest) ->
      loop (fuel + 1) (p.text ++ ',' :: next) = some (p.value :: values, rest)
  complete_closing : p.ok -> forall {fuel : Nat} (rest : List Char),
    p.text.length < fuel -> loop (fuel + 1) (p.text ++ (closing ++ rest)) = some ([p.value], rest)

variable {loop closing}

theorem separated_sound {p : Item α} {ps : List (Item α)}
    (hall : forall q, q ∈ p :: ps -> q.ReadBy loop closing) {fuel : Nat} {rest rest' : List Char}
    (h : loop fuel (separated p ps ++ (closing ++ rest)) =
      some ((p :: ps).map Item.value, rest')) :
    (forall q, q ∈ p :: ps -> q.ok) ∧ rest' = rest := by
  induction ps generalizing p fuel with
  | nil =>
      rcases (hall p List.mem_cons_self).sound_closing h with ⟨hok, hsame⟩
      refine ⟨?_, hsame⟩
      intro q hq
      rw [List.mem_singleton.mp hq]
      exact hok
  | cons r ps ih =>
      unfold separated at h
      rw [List.append_assoc, List.cons_append] at h
      rcases (hall p List.mem_cons_self).sound_comma h with ⟨hok, fuel', hnext⟩
      rcases ih (fun q hq => hall q (List.mem_cons_of_mem p hq)) hnext with ⟨hoks, hsame⟩
      refine ⟨?_, hsame⟩
      intro q hq
      rcases List.mem_cons.mp hq with hq | hq
      · rw [hq]
        exact hok
      · exact hoks q hq

theorem separated_complete {p : Item α} {ps : List (Item α)}
    (hall : forall q, q ∈ p :: ps -> q.ReadBy loop closing) (hok : forall q, q ∈ p :: ps -> q.ok)
    {fuel : Nat} (hfuel : (separated p ps).length + 1 < fuel) (rest : List Char) :
    loop fuel (separated p ps ++ (closing ++ rest)) = some ((p :: ps).map Item.value, rest) := by
  have hp := hall p List.mem_cons_self
  have hpok := hok p List.mem_cons_self
  induction ps generalizing p fuel with
  | nil =>
      cases fuel with
      | zero => exact absurd hfuel (Nat.not_lt_zero _)
      | succ fuel => exact hp.complete_closing hpok rest (Nat.lt_of_succ_lt_succ hfuel)
  | cons r ps ih =>
      cases fuel with
      | zero => exact absurd hfuel (Nat.not_lt_zero _)
      | succ fuel =>
          unfold separated at hfuel ⊢
          rw [List.length_append, List.length_cons] at hfuel
          have hfirst : p.text.length < fuel := by omega
          have hothers : (separated r ps).length + 1 < fuel := by omega
          have hall' := fun q (hq : q ∈ r :: ps) => hall q (List.mem_cons_of_mem p hq)
          have hok' := fun q (hq : q ∈ r :: ps) => hok q (List.mem_cons_of_mem p hq)
          have hlater := ih hall' hok' hothers (hall' r List.mem_cons_self)
            (hok' r List.mem_cons_self)
          rw [List.append_assoc, List.cons_append]
          exact hp.complete_comma hpok hfirst hlater

end Loops

end Foundation
end PerfMonitor
