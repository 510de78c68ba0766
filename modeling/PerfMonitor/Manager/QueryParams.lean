import PerfMonitor.Manager.HttpServer

/-!
# The parameters of a query

`parse_param` looks for the text `key=` anywhere in the query.  In a list of parameters
it can be at the end of a longer key or inside a value, and then the parameter that has
it comes before the one that was asked for.  This module says which parameter the search
stops at, and when that gives the value asked for.
-/

namespace PerfMonitor
namespace Manager

open Foundation

structure QueryKey where
  text : Str
  noAmp : '&' ∉ text
  noEq : '=' ∉ text

structure QueryParam where
  key : QueryKey
  value : Str
  noAmp : '&' ∉ value

namespace QueryParam

def text (p : QueryParam) : Str :=
  p.key.text ++ '=' :: p.value

/-- The parameters with `&` between any two. -/
def query (ps : List QueryParam) : Str :=
  List.intercalate ['&'] (ps.map text)

/-- The value of the first parameter with the key, and the empty text if there is none. -/
def valueOf (ps : List QueryParam) (key : QueryKey) : Str :=
  match ps.find? (fun p => decide (p.key.text = key.text)) with
  | none => []
  | some p => p.value

/-- The text `key=` is in the parameter: its key ends in this key, or its value has the
text. -/
def Mentions (key : QueryKey) (p : QueryParam) : Prop :=
  key.text <:+ p.key.text ∨ key.text ++ ['='] <:+: p.value

instance (key : QueryKey) (p : QueryParam) : Decidable (p.Mentions key) :=
  inferInstanceAs (Decidable (_ ∨ _))

/-- What follows the first `key=` in a parameter that has the text. -/
def textAfter (key : QueryKey) (p : QueryParam) : Str :=
  if key.text <:+ p.key.text then p.value
  else
    match findText (key.text ++ ['=']) p.value with
    | none => []
    | some pos => p.value.drop (pos + (key.text.length + 1))

/-- Of the parameters with the text `key=`, the first has the key itself, or what follows
the text there is what was asked for all the same. -/
def FirstIsWhole (ps : List QueryParam) (key : QueryKey) : Prop :=
  forall p, ps.find? (fun p => decide (p.Mentions key)) = some p ->
    p.key.text = key.text ∨ p.textAfter key = valueOf ps key

section Search

variable (key : QueryKey) (p : QueryParam)

theorem amp_notMem_name : '&' ∉ key.text ++ ['='] :=
  List.not_mem_append key.noAmp (by decide)

theorem amp_notMem_text : '&' ∉ p.text :=
  List.not_mem_append p.key.noAmp (List.not_mem_cons_of_ne_of_not_mem (by decide) p.noAmp)

theorem findText_text_of_suffix {front : Str} (h : front ++ key.text = p.key.text) :
    findText (key.text ++ ['=']) p.text = some front.length := by
  have hwhole : '=' ∉ front ++ key.text := h.symm ▸ p.key.noEq
  unfold text
  rw [← h]
  exact findText_concat_of_suffix hwhole p.value

theorem findText_text_of_notSuffix (h : ¬ key.text <:+ p.key.text) :
    findText (key.text ++ ['=']) p.text =
      (findText (key.text ++ ['=']) p.value).map (fun i => i + (p.key.text.length + 1)) :=
  findText_concat_of_notSuffix key.noEq p.key.noEq h p.value

theorem mentions_iff : p.Mentions key <-> key.text ++ ['='] <:+: p.text := by
  have hfind : (key.text ++ ['='] <:+: p.text) <-> findText (key.text ++ ['=']) p.text ≠ none := by
    rw [Ne, findText_eq_none, not_not]
  unfold Mentions
  rw [hfind]
  by_cases hsuffix : key.text <:+ p.key.text
  · rcases hsuffix with ⟨front, hfront⟩
    rw [findText_text_of_suffix key p hfront]
    constructor
    · intro _ hnone
      cases hnone
    · intro _
      exact Or.inl ⟨front, hfront⟩
  · rw [findText_text_of_notSuffix key p hsuffix, Ne, Option.map_eq_none_iff, findText_eq_none,
      not_not]
    constructor
    · intro h
      exact h.resolve_left hsuffix
    · intro h
      exact Or.inr h

theorem drop_text {pos : Nat} (h : findText (key.text ++ ['=']) p.text = some pos) :
    p.text.drop (pos + (key.text.length + 1)) = p.textAfter key := by
  unfold textAfter
  split
  next hsuffix =>
    rcases hsuffix with ⟨front, hfront⟩
    rw [findText_text_of_suffix key p hfront] at h
    injection h with h
    have hlength : pos + (key.text.length + 1) = (p.key.text ++ ['=']).length := by
      rw [← h, ← hfront, List.length_append, List.length_append, List.length_singleton]
      omega
    have htext : p.text = (p.key.text ++ ['=']) ++ p.value := by
      rw [List.append_assoc]
      rfl
    rw [hlength, htext, List.drop_left]
  next hsuffix =>
    rw [findText_text_of_notSuffix key p hsuffix] at h
    rcases Option.map_eq_some_iff.mp h with ⟨i, hi, hpos⟩
    have hlength : pos + (key.text.length + 1) =
        (p.key.text ++ ['=']).length + (i + (key.text.length + 1)) := by
      rw [← hpos, List.length_append, List.length_singleton]
      omega
    have htext : p.text = (p.key.text ++ ['=']) ++ p.value := by
      rw [List.append_assoc]
      rfl
    rw [hi, hlength, htext, ← List.drop_drop, List.drop_left]

theorem parseParam_eq (s name : Str) :
    MetricsExporter.parseParam s name =
      match findText (name ++ ['=']) s with
      | none => []
      | some pos => (s.drop (pos + (name.length + 1))).takeWhile (fun c => c ≠ '&') := by
  unfold MetricsExporter.parseParam
  dsimp only
  cases findText (name ++ ['=']) s with
  | none => rfl
  | some pos =>
      rw [List.length_append, List.length_singleton]
      dsimp only
      rcases findChar_cases '&' (s.drop (pos + (name.length + 1))) with
        ⟨hnone, hfind⟩ | ⟨value, rest, heq, hvalue, hfind⟩
      · rw [hfind]
        symm
        apply List.takeWhile_eq_self_iff.mpr
        intro d hd
        simpa using fun hamp : d = '&' => hnone (hamp ▸ hd)
      · rw [hfind]
        unfold substr
        dsimp only
        rw [heq, List.take_left, List.takeWhile_append_of_pos]
        · simp
        · intro d hd
          simpa using fun hamp : d = '&' => hvalue (hamp ▸ hd)

theorem parseParam_of_mentions (h : p.Mentions key) {tail : Str}
    (htail : tail = [] ∨ exists rest, tail = '&' :: rest) :
    MetricsExporter.parseParam (p.text ++ tail) key.text = p.textAfter key := by
  have hinfix := (mentions_iff key p).mp h
  rw [parseParam_eq, findText_append_of_infix hinfix]
  cases hfind : findText (key.text ++ ['=']) p.text with
  | none => exact absurd hinfix (findText_eq_none.mp hfind)
  | some pos =>
      rcases (findText_split hfind).left with ⟨before, rest, heq, hpos⟩
      have hfits : pos + (key.text.length + 1) ≤ p.text.length := by
        rw [heq, ← hpos]
        simp only [List.length_append, List.length_singleton]
        omega
      have hplain : forall c, c ∈ p.textAfter key -> decide (c ≠ '&') = true := by
        intro c hc
        rw [← drop_text key p hfind] at hc
        simpa using fun hamp : c = '&' => p.amp_notMem_text (hamp ▸ List.mem_of_mem_drop hc)
      have hstop : tail.takeWhile (fun c => decide (c ≠ '&')) = [] := by
        rcases htail with rfl | ⟨rest', rfl⟩
        · rfl
        · exact List.takeWhile_cons_of_neg (by simp)
      dsimp only
      rw [List.drop_append_of_le_length hfits, drop_text key p hfind,
        List.takeWhile_append_of_pos hplain, hstop, List.append_nil]

theorem parseParam_of_not_mentions (h : ¬ p.Mentions key) (rest : Str) :
    MetricsExporter.parseParam (p.text ++ '&' :: rest) key.text =
      MetricsExporter.parseParam rest key.text := by
  have hno : ¬ key.text ++ ['='] <:+: p.text := fun hinfix => h ((mentions_iff key p).mpr hinfix)
  rw [parseParam_eq, parseParam_eq, findText_append_sep (amp_notMem_name key) hno]
  cases findText (key.text ++ ['=']) rest with
  | none => rfl
  | some pos =>
      have hsplit : p.text ++ '&' :: rest = (p.text ++ ['&']) ++ rest := by
        rw [List.append_assoc]
        rfl
      have hlength : pos + (p.text.length + 1) + (key.text.length + 1) =
          (p.text ++ ['&']).length + (pos + (key.text.length + 1)) := by
        rw [List.length_append, List.length_singleton]
        omega
      dsimp only [Option.map_some]
      rw [hsplit, hlength, ← List.drop_drop, List.drop_left]

end Search

/-!
## Whole queries
-/

theorem query_cons_cons (p q : QueryParam) (ps : List QueryParam) :
    query (p :: q :: ps) = p.text ++ '&' :: query (q :: ps) := by
  unfold query
  rw [List.map_cons, List.map_cons, List.intercalate_cons_cons, List.append_assoc]
  rfl

/-- `parse_param` returns what follows the text in the first parameter that has it. -/
theorem parseParam_query (ps : List QueryParam) (key : QueryKey) :
    MetricsExporter.parseParam (query ps) key.text =
      match ps.find? (fun p => decide (p.Mentions key)) with
      | none => []
      | some p => p.textAfter key := by
  induction ps with
  | nil =>
      rw [parseParam_eq]
      have hnone : findText (key.text ++ ['=']) (query []) = none := by
        apply findText_eq_none.mpr
        intro hinfix
        have hnil := List.infix_nil.mp hinfix
        exact absurd hnil (by simp)
      rw [hnone]
      rfl
  | cons p ps ih =>
      by_cases hmentions : p.Mentions key
      · rw [List.find?_cons_of_pos (by simpa using hmentions)]
        cases ps with
        | nil =>
            have hquery : query [p] = p.text ++ [] := by
              unfold query
              rw [List.map_singleton, List.intercalate_singleton, List.append_nil]
            rw [hquery]
            exact parseParam_of_mentions key p hmentions (Or.inl rfl)
        | cons q ps =>
            rw [query_cons_cons]
            exact parseParam_of_mentions key p hmentions (Or.inr ⟨_, rfl⟩)
      · rw [List.find?_cons_of_neg (by simpa using hmentions)]
        cases ps with
        | nil =>
            have hno : findText (key.text ++ ['=']) p.text = none :=
              findText_eq_none.mpr (fun hinfix => hmentions ((mentions_iff key p).mpr hinfix))
            have hquery : query [p] = p.text := by
              unfold query
              rw [List.map_singleton, List.intercalate_singleton]
            rw [hquery, parseParam_eq, hno]
            rfl
        | cons q ps =>
            rw [query_cons_cons, parseParam_of_not_mentions key p hmentions]
            exact ih

theorem valueOf_of_firstMention {ps : List QueryParam} {key : QueryKey} {p : QueryParam}
    (hfirst : ps.find? (fun p => decide (p.Mentions key)) = some p)
    (hkey : p.key.text = key.text) : valueOf ps key = p.value := by
  unfold valueOf
  have hfind : ps.find? (fun p => decide (p.key.text = key.text)) = some p := by
    rcases List.find?_eq_some_iff_append.mp hfirst with ⟨_, earlier, later, hps, hearlier⟩
    apply List.find?_eq_some_iff_append.mpr
    refine ⟨decide_eq_true hkey, earlier, later, hps, ?_⟩
    intro q hq
    have hno := hearlier q hq
    simp only [Bool.not_eq_true', decide_eq_false_iff_not] at hno ⊢
    intro hsame
    exact hno (Or.inl (hsame ▸ List.suffix_refl _))
  rw [hfind]

theorem valueOf_of_noMention {ps : List QueryParam} {key : QueryKey}
    (hnone : ps.find? (fun p => decide (p.Mentions key)) = none) : valueOf ps key = [] := by
  unfold valueOf
  have hfind : ps.find? (fun p => decide (p.key.text = key.text)) = none := by
    apply List.find?_eq_none.mpr
    intro q hq hsame
    have hno := List.find?_eq_none.mp hnone q hq
    have heq : q.key.text = key.text := of_decide_eq_true hsame
    exact hno (decide_eq_true (Or.inl (heq ▸ List.suffix_refl _)))
  rw [hfind]

/-- `parse_param` returns the value of the first parameter with the key exactly when the
search for `key=` stops at that parameter, or finds the same text elsewhere. -/
theorem parseParam_eq_valueOf_iff (ps : List QueryParam) (key : QueryKey) :
    MetricsExporter.parseParam (query ps) key.text = valueOf ps key <-> FirstIsWhole ps key := by
  rw [parseParam_query]
  unfold FirstIsWhole
  cases hfirst : ps.find? (fun p => decide (p.Mentions key)) with
  | none =>
      constructor
      · intro _ p hp
        cases hp
      · intro _
        exact (valueOf_of_noMention hfirst).symm
  | some p =>
      constructor
      · intro hsame p' hp'
        injection hp' with hp'
        subst hp'
        exact Or.inr hsame
      · intro hwhole
        rcases hwhole p rfl with hkey | hsame
        · rw [valueOf_of_firstMention hfirst hkey]
          show p.textAfter key = p.value
          unfold textAfter
          rw [if_pos (hkey ▸ List.suffix_refl _)]
        · exact hsame

def fileKey : QueryKey where
  text := "file".toList
  noAmp := by decide
  noEq := by decide

/-- A parameter `profile` before the parameter `file`. -/
def profileAndFile : List QueryParam :=
  [{ key := { text := "profile".toList, noAmp := by decide, noEq := by decide }
     value := "x".toList
     noAmp := by decide },
    { key := fileKey
      value := "perf_a_1.data".toList
      noAmp := by decide }]

theorem profileAndFile_not_whole :
    ¬ MetricsExporter.parseParam (query profileAndFile) fileKey.text =
      valueOf profileAndFile fileKey := by
  decide +kernel

end QueryParam

end Manager
end PerfMonitor
