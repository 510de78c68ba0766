import Mathlib.Data.List.Basic

/-!
# Quoted strings

A reader of strings between double quotes, over any set of escape sequences and any
set of characters that may stand for themselves.  A writer that puts a text between
quotes as it is gets it back exactly when the text is clean: no quote, no backslash,
and only characters that stand for themselves.  The reader may accept other texts,
but what it returns is then a different text.
-/

namespace PerfMonitor
namespace Foundation

/-- A kind of quoted string: what follows a backslash, and which characters stand for
themselves.  An escape sequence either is the escaped quote or has no quote in it. -/
structure QuotedFormat where
  unescape : List Char -> Option (Char × List Char)
  plain : Char -> Bool
  unescape_splits : forall text c rest, unescape text = some (c, rest) ->
    exists seq, text = seq ++ rest ∧ seq ≠ [] ∧ ((seq = ['"'] ∧ c = '"') ∨ '"' ∉ seq)

namespace QuotedFormat

variable (F : QuotedFormat)

/-- Read a string whose opening quote has been read, up to its closing quote. -/
def read : Nat -> List Char -> Option (List Char × List Char)
  | 0, _ => none
  | _ + 1, [] => none
  | fuel + 1, c :: rest =>
      if c = '"' then some ([], rest)
      else if c = '\\' then
        match F.unescape rest with
        | none => none
        | some (c', rest') => (read fuel rest').map (fun p => (c' :: p.1, p.2))
      else if F.plain c then (read fuel rest).map (fun p => (c :: p.1, p.2))
      else none

def readString (text : List Char) : Option (List Char × List Char) :=
  F.read (text.length + 1) text

def Clean (text : List Char) : Prop :=
  forall c, c ∈ text -> c ≠ '"' ∧ c ≠ '\\' ∧ F.plain c = true

instance (text : List Char) : Decidable (F.Clean text) :=
  List.decidableBAll (fun c => c ≠ '"' ∧ c ≠ '\\' ∧ F.plain c = true) text

theorem read_of_clean {text : List Char} (h : F.Clean text) (rest : List Char) {fuel : Nat}
    (hfuel : text.length < fuel) : F.read fuel (text ++ '"' :: rest) = some (text, rest) := by
  induction text generalizing fuel with
  | nil =>
      cases fuel with
      | zero => exact absurd hfuel (Nat.not_lt_zero 0)
      | succ fuel => simp [read]
  | cons c text ih =>
      cases fuel with
      | zero => exact absurd hfuel (Nat.not_lt_zero _)
      | succ fuel =>
          rcases h c List.mem_cons_self with ⟨hquote, hslash, hplain⟩
          have htail := ih (fun d hd => h d (List.mem_cons_of_mem c hd))
            (Nat.lt_of_succ_lt_succ hfuel)
          rw [List.cons_append, read, if_neg hquote, if_neg hslash, if_pos hplain, htail]
          rfl

theorem readString_of_clean {text : List Char} (h : F.Clean text) (rest : List Char) :
    F.readString (text ++ '"' :: rest) = some (text, rest) := by
  apply F.read_of_clean h
  rw [List.length_append]
  omega

theorem exists_before_quote {text seq rest rest' : List Char} (hseq : '"' ∉ seq)
    (heq : text ++ '"' :: rest = seq ++ rest') :
    exists text', text = seq ++ text' ∧ rest' = text' ++ '"' :: rest := by
  rcases List.append_eq_append_iff.mp heq with ⟨t, hs, hrest⟩ | ⟨t, ht, hrest⟩
  · cases t with
    | nil =>
        refine ⟨[], ?_, ?_⟩
        · rw [hs, List.append_nil, List.append_nil]
        · exact hrest.symm
    | cons c t =>
        exfalso
        injection hrest with hc _
        apply hseq
        rw [hs, ← hc]
        simp
  · exact ⟨t, ht, hrest⟩

/-- What can be read when the first quote stands after `text`: the text itself, and
then it is clean; or something shorter; or something with an early quote. -/
def Outcome (text rest value rest' : List Char) : Prop :=
  (value = text ∧ F.Clean text ∧ rest' = rest) ∨ value.length < text.length ∨
    '"' ∈ value.take text.length

theorem outcome_nil (rest : List Char) : F.Outcome [] rest [] rest := by
  left
  refine ⟨rfl, ?_, rfl⟩
  intro c hc
  cases hc

theorem outcome_plain {text rest value rest' : List Char} {c : Char} (hquote : c ≠ '"')
    (hslash : c ≠ '\\') (hplain : F.plain c = true) (h : F.Outcome text rest value rest') :
    F.Outcome (c :: text) rest (c :: value) rest' := by
  rcases h with ⟨heq, hclean, hsame⟩ | hshort | hearly
  · left
    refine ⟨by rw [heq], ?_, hsame⟩
    intro d hd
    rcases List.mem_cons.mp hd with hd | hd
    · rw [hd]
      exact ⟨hquote, hslash, hplain⟩
    · exact hclean d hd
  · right
    left
    exact Nat.succ_lt_succ hshort
  · right
    right
    rw [List.length_cons, List.take_succ_cons]
    exact List.mem_cons_of_mem c hearly

/-- An escape sequence stands for one character, so the value falls short. -/
theorem outcome_escape {text text' rest value rest' : List Char} (c c' : Char)
    (hlen : text'.length < text.length) (h : F.Outcome text' rest value rest') :
    F.Outcome (c :: text) rest (c' :: value) rest' := by
  rcases h with ⟨heq, _, _⟩ | hshort | hearly
  · right
    left
    rw [heq]
    exact Nat.succ_lt_succ hlen
  · right
    left
    exact Nat.succ_lt_succ (Nat.lt_trans hshort hlen)
  · right
    right
    rw [List.length_cons, List.take_succ_cons]
    exact List.mem_cons_of_mem c'
      (List.take_subset_take_left value (Nat.le_of_lt hlen) hearly)

theorem read_before_quote {fuel : Nat} {text rest value rest' : List Char} (htext : '"' ∉ text)
    (h : F.read fuel (text ++ '"' :: rest) = some (value, rest')) :
    F.Outcome text rest value rest' := by
  induction fuel generalizing text value with
  | zero => cases h
  | succ fuel ih =>
      cases text with
      | nil =>
          rw [List.nil_append, read, if_pos rfl] at h
          injection h with h
          injection h with hvalue hrest
          rw [← hvalue, ← hrest]
          exact F.outcome_nil rest
      | cons c text =>
          have hquote : c ≠ '"' := fun heq => htext (heq ▸ List.mem_cons_self)
          have htail : '"' ∉ text := fun hmem => htext (List.mem_cons_of_mem c hmem)
          rw [List.cons_append, read, if_neg hquote] at h
          split at h
          · -- an escape sequence: it shortens the text or brings in a quote
            split at h
            · cases h
            next c' tail hunescape =>
              rcases Option.map_eq_some_iff.mp h with ⟨⟨value', tail'⟩, hread, hpair⟩
              injection hpair with hvalue hrest
              rcases F.unescape_splits _ _ _ hunescape with ⟨seq, hsplit, hne, hseq⟩
              rw [← hvalue]
              rcases hseq with ⟨_, hc'⟩ | hseq
              · right
                right
                rw [hc', List.length_cons, List.take_succ_cons]
                exact List.mem_cons_self
              · rcases exists_before_quote hseq hsplit with ⟨text', htext', htail'⟩
                have hlen : text'.length < text.length := by
                  rw [htext', List.length_append]
                  have hpos := List.length_pos_iff.mpr hne
                  omega
                have hnot : '"' ∉ text' := by
                  intro hmem
                  apply htail
                  rw [htext']
                  exact List.mem_append_right seq hmem
                dsimp only at hrest
                rw [htail', hrest] at hread
                exact F.outcome_escape c c' hlen (ih hnot hread)
          · next hslash =>
            split at h
            next hplain =>
              rcases Option.map_eq_some_iff.mp h with ⟨⟨value', tail'⟩, hread, hpair⟩
              injection hpair with hvalue hrest
              dsimp only at hrest
              rw [hrest] at hread
              rw [← hvalue]
              exact F.outcome_plain hquote hslash hplain (ih htail hread)
            · cases h

theorem clean_of_readString {text rest rest' : List Char}
    (h : F.readString (text ++ '"' :: rest) = some (text, rest')) :
    F.Clean text ∧ rest' = rest := by
  by_cases hquote : '"' ∈ text
  · -- the reader cannot get past the first quote and still return it in its place
    exfalso
    rcases List.eq_append_cons_of_mem hquote with ⟨front, back, heq, hfront⟩
    have hsplit : text ++ '"' :: rest = front ++ '"' :: (back ++ '"' :: rest) := by
      rw [heq, List.append_assoc]
      rfl
    have hlonger : front.length < text.length := by
      rw [heq, List.length_append, List.length_cons]
      omega
    have htake : text.take front.length = front := by
      rw [heq, List.take_left]
    unfold readString at h
    rw [hsplit] at h
    rcases F.read_before_quote hfront h with ⟨hsame, _, _⟩ | hshort | hearly
    · rw [hsame] at hlonger
      exact Nat.lt_irrefl _ hlonger
    · exact Nat.lt_asymm hshort hlonger
    · rw [htake] at hearly
      exact hfront hearly
  · rcases F.read_before_quote hquote h with ⟨_, hclean, hsame⟩ | hshort | hearly
    · exact ⟨hclean, hsame⟩
    · exact absurd hshort (Nat.lt_irrefl _)
    · rw [List.take_length] at hearly
      exact absurd hearly hquote

end QuotedFormat

end Foundation
end PerfMonitor
