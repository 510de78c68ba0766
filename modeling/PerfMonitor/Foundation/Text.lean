import Mathlib.Data.List.TakeWhile

/-!
# Searching in strings

`find`, `rfind` and `substr` of `std::string`, with positions as the results of a
search.  Each search comes with what it returns on a text that is put together
around the first or the last occurrence, and with how the text splits at the
position that was found.
-/

namespace PerfMonitor
namespace Foundation

/-- `s.find(c)`. -/
def findChar (c : Char) (s : List Char) : Option Nat :=
  s.findIdx? (fun c' => c' == c)

/-- `s.rfind(c)`. -/
def rfind (c : Char) (s : List Char) : Option Nat :=
  (s.reverse.findIdx? (fun c' => c' == c)).map (fun i => s.length - 1 - i)

/-- `s.find(pat)`. -/
def findText (pat : List Char) : List Char -> Option Nat
  | [] => if pat.isEmpty then some 0 else none
  | c :: rest =>
      if pat.isPrefixOf (c :: rest) then some 0
      else (findText pat rest).map (fun i => i + 1)

/-- `s.substr(pos, len)` for a position inside the string. -/
def substr (s : List Char) (pos len : Nat) : List Char :=
  (s.drop pos).take len

/-- The string that a C function reads at `s.c_str()`. -/
def cString (s : List Char) : List Char :=
  s.takeWhile (fun c => c ≠ '\x00')

section Searches

variable {c : Char} {a b s : List Char}

theorem findChar_append (ha : c ∉ a) (b : List Char) :
    findChar c (a ++ c :: b) = some a.length := by
  induction a with
  | nil => simp [findChar, List.findIdx?_cons]
  | cons d a ih =>
      have hd : (d == c) = false := by
        simpa using fun heq : d = c => ha (heq ▸ List.mem_cons_self)
      have htail := ih (fun hmem => ha (List.mem_cons_of_mem d hmem))
      unfold findChar at htail ⊢
      rw [List.cons_append, List.findIdx?_cons, hd, htail]
      rfl

theorem findChar_of_notMem (hs : c ∉ s) : findChar c s = none := by
  apply List.findIdx?_eq_none_iff.mpr
  intro d hd
  simpa using fun heq : d = c => hs (heq ▸ hd)

theorem findChar_cases (c : Char) (s : List Char) :
    (c ∉ s ∧ findChar c s = none) ∨
      exists a b, s = a ++ c :: b ∧ c ∉ a ∧ findChar c s = some a.length := by
  by_cases hmem : c ∈ s
  · right
    rcases List.eq_append_cons_of_mem hmem with ⟨a, b, heq, ha⟩
    refine ⟨a, b, heq, ha, ?_⟩
    rw [heq]
    exact findChar_append ha b
  · exact Or.inl ⟨hmem, findChar_of_notMem hmem⟩

theorem rfind_append (a : List Char) (hb : c ∉ b) : rfind c (a ++ c :: b) = some a.length := by
  have hreverse : (a ++ c :: b).reverse = b.reverse ++ c :: a.reverse := by simp
  have hfirst : b.reverse.length = b.length := List.length_reverse
  have hfind := findChar_append (c := c) (a := b.reverse) (by simpa using hb) a.reverse
  unfold findChar at hfind
  unfold rfind
  rw [hreverse, hfind, hfirst, Option.map_some, List.length_append, List.length_cons]
  congr 1
  omega

theorem rfind_of_notMem (hs : c ∉ s) : rfind c s = none := by
  have hfind := findChar_of_notMem (c := c) (s := s.reverse) (by simpa using hs)
  unfold findChar at hfind
  unfold rfind
  rw [hfind]
  rfl

theorem rfind_cases (c : Char) (s : List Char) :
    (c ∉ s ∧ rfind c s = none) ∨
      exists a b, s = a ++ c :: b ∧ c ∉ b ∧ rfind c s = some a.length := by
  by_cases hmem : c ∈ s
  · right
    rcases List.eq_append_cons_of_mem (List.mem_reverse.mpr hmem) with ⟨b, a, heq, hb⟩
    have hs : s = a.reverse ++ c :: b.reverse := by
      have hreverse := congrArg List.reverse heq
      simpa using hreverse
    refine ⟨a.reverse, b.reverse, hs, by simpa using hb, ?_⟩
    rw [hs]
    exact rfind_append _ (by simpa using hb)
  · exact Or.inl ⟨hmem, rfind_of_notMem hmem⟩

theorem findText_of_isPrefix {pat : List Char} (h : pat <+: s) : findText pat s = some 0 := by
  cases s with
  | nil =>
      have hnil := List.prefix_nil.mp h
      rw [hnil]
      rfl
  | cons d rest =>
      unfold findText
      rw [if_pos (List.isPrefixOf_iff_prefix.mpr h)]

theorem findText_cons_of_notPrefix {pat : List Char} {d : Char} (h : ¬ pat <+: d :: s) :
    findText pat (d :: s) = (findText pat s).map (fun i => i + 1) := by
  rw [findText, if_neg (fun hpre => h (List.isPrefixOf_iff_prefix.mp hpre))]

theorem findText_append {pat : List Char} (ha : c ∉ a) (b : List Char) :
    findText (c :: pat) (a ++ (c :: pat ++ b)) = some a.length := by
  induction a with
  | nil => exact findText_of_isPrefix ⟨b, rfl⟩
  | cons d a ih =>
      have hne : ¬ (c :: pat) <+: (d :: (a ++ (c :: pat ++ b))) := by
        intro hpre
        exact ha ((List.cons_prefix_cons.mp hpre).left ▸ List.mem_cons_self)
      have htail := ih (fun hmem => ha (List.mem_cons_of_mem d hmem))
      rw [List.cons_append, findText, if_neg (fun h => hne (List.isPrefixOf_iff_prefix.mp h)),
        htail]
      rfl

theorem findText_eq_none {pat : List Char} : findText pat s = none <-> ¬ pat <:+: s := by
  induction s with
  | nil =>
      unfold findText
      cases pat with
      | nil => simp
      | cons d pat => simp
  | cons d rest ih =>
      unfold findText
      rw [List.infix_cons_iff]
      by_cases hpre : pat <+: d :: rest
      · rw [if_pos (List.isPrefixOf_iff_prefix.mpr hpre)]
        simp [hpre]
      · rw [if_neg (fun h => hpre (List.isPrefixOf_iff_prefix.mp h)), Option.map_eq_none_iff, ih]
        simp [hpre]

theorem findText_split {pat : List Char} {i : Nat} (h : findText pat s = some i) :
    (exists a b, s = a ++ (pat ++ b) ∧ a.length = i) ∧
      forall a b, s = a ++ (pat ++ b) -> i ≤ a.length := by
  induction s generalizing i with
  | nil =>
      unfold findText at h
      split at h
      next hempty =>
        injection h with h
        have hpat := List.isEmpty_iff.mp hempty
        exact ⟨⟨[], [], by rw [hpat]; rfl, h⟩, fun a _ _ => h ▸ Nat.zero_le a.length⟩
      · cases h
  | cons d rest ih =>
      unfold findText at h
      split at h
      next hpre =>
        injection h with h
        rcases List.isPrefixOf_iff_prefix.mp hpre with ⟨b, hb⟩
        exact ⟨⟨[], b, hb.symm, h⟩, fun a _ _ => h ▸ Nat.zero_le a.length⟩
      next hpre =>
        rcases Option.map_eq_some_iff.mp h with ⟨j, hj, hi⟩
        rcases ih hj with ⟨⟨a, b, heq, hlen⟩, hfirst⟩
        refine ⟨⟨d :: a, b, by rw [heq]; rfl, by rw [← hi, ← hlen]; rfl⟩, ?_⟩
        intro a' b' heq'
        cases a' with
        | nil => exact absurd (List.isPrefixOf_iff_prefix.mpr ⟨b', heq'.symm⟩) hpre
        | cons d' a' =>
            injection heq' with _ heq'
            rw [← hi]
            exact Nat.succ_le_succ (hfirst a' b' heq')

theorem findText_append_of_infix {pat : List Char} (h : pat <:+: a) (b : List Char) :
    findText pat (a ++ b) = findText pat a := by
  induction a with
  | nil =>
      rw [List.infix_nil.mp h, findText_of_isPrefix List.nil_prefix,
        findText_of_isPrefix List.nil_prefix]
  | cons d a ih =>
      by_cases hpre : pat <+: d :: a
      · rw [findText_of_isPrefix hpre, findText_of_isPrefix (hpre.trans (List.prefix_append _ b))]
      · have hlong : ¬ pat <+: d :: (a ++ b) := by
          intro hlong
          exact hpre (List.prefix_of_prefix_length_le hlong (List.prefix_append (d :: a) b)
            h.length_le)
        have htail := ih ((List.infix_cons_iff.mp h).resolve_left hpre)
        rw [List.cons_append, findText_cons_of_notPrefix hlong, findText_cons_of_notPrefix hpre,
          htail]

theorem prefix_of_prefix_append_sep {pat : List Char} (hsep : c ∉ pat)
    (h : pat <+: a ++ c :: b) : pat <+: a := by
  rcases h with ⟨rest, heq⟩
  rcases List.append_eq_append_iff.mp heq with ⟨t, ha, _⟩ | ⟨t, hpat, hrest⟩
  · exact ⟨t, ha.symm⟩
  · cases t with
    | nil =>
        have hsame : pat = a := hpat.trans (List.append_nil a)
        exact ⟨[], by rw [hsame, List.append_nil]⟩
    | cons d t =>
        injection hrest with hd _
        rw [hpat, ← hd] at hsep
        exact absurd (List.mem_append_right a List.mem_cons_self) hsep

theorem findText_append_sep {pat : List Char} (hsep : c ∉ pat) (hno : ¬ pat <:+: a)
    (b : List Char) :
    findText pat (a ++ c :: b) = (findText pat b).map (fun i => i + (a.length + 1)) := by
  have hpre : ¬ pat <+: a ++ c :: b :=
    fun hpre => hno (prefix_of_prefix_append_sep hsep hpre).isInfix
  induction a with
  | nil => exact findText_cons_of_notPrefix hpre
  | cons d a ih =>
      have hno' : ¬ pat <:+: a := fun h => hno (List.infix_cons h)
      have htail := ih hno' (fun hpre => hno' (prefix_of_prefix_append_sep hsep hpre).isInfix)
      rw [List.cons_append] at hpre ⊢
      rw [findText_cons_of_notPrefix hpre, htail, Option.map_map]
      rfl

/-- A pattern that ends with a character is at the front of a text up to the first such
character exactly if it is that front. -/
theorem concat_prefix_append_iff {pat : List Char} (hpat : c ∉ pat) (ha : c ∉ a) (b : List Char) :
    pat ++ [c] <+: a ++ c :: b <-> pat = a := by
  constructor
  · rintro ⟨rest, heq⟩
    rw [List.append_assoc, List.singleton_append] at heq
    have hfirst := findChar_append hpat rest
    rw [heq, findChar_append ha b] at hfirst
    injection hfirst with hlength
    exact List.append_inj_left heq hlength.symm
  · rintro rfl
    exact ⟨b, by rw [List.append_assoc]; rfl⟩

theorem findText_concat_of_suffix {pat : List Char} (hwhole : c ∉ a ++ pat) (b : List Char) :
    findText (pat ++ [c]) ((a ++ pat) ++ c :: b) = some a.length := by
  have hpat : c ∉ pat := fun hmem => hwhole (List.mem_append_right a hmem)
  induction a with
  | nil => exact findText_of_isPrefix ((concat_prefix_append_iff hpat hpat b).mpr rfl)
  | cons d a ih =>
      have hpre : ¬ pat ++ [c] <+: (d :: (a ++ pat)) ++ c :: b := by
        intro hpre
        have hlen := congrArg List.length ((concat_prefix_append_iff hpat hwhole b).mp hpre)
        simp only [List.length_cons, List.length_append] at hlen
        omega
      have htail := ih (fun hmem => hwhole (List.mem_cons_of_mem d hmem))
      rw [List.cons_append] at hpre
      rw [List.cons_append, List.cons_append, findText_cons_of_notPrefix hpre, htail]
      rfl

theorem findText_concat_of_notSuffix {pat : List Char} (hpat : c ∉ pat) (ha : c ∉ a)
    (hno : ¬ pat <:+ a) (b : List Char) :
    findText (pat ++ [c]) (a ++ c :: b) =
      (findText (pat ++ [c]) b).map (fun i => i + (a.length + 1)) := by
  have hpre : ¬ pat ++ [c] <+: a ++ c :: b := by
    intro hpre
    rw [(concat_prefix_append_iff hpat ha b).mp hpre] at hno
    exact hno (List.suffix_refl a)
  induction a with
  | nil => exact findText_cons_of_notPrefix hpre
  | cons d a ih =>
      have hno' : ¬ pat <:+ a := fun h => hno (h.trans (List.suffix_cons d a))
      have ha' : c ∉ a := fun hmem => ha (List.mem_cons_of_mem d hmem)
      have hpre' : ¬ pat ++ [c] <+: a ++ c :: b := by
        intro hpre
        rw [(concat_prefix_append_iff hpat ha' b).mp hpre] at hno'
        exact hno' (List.suffix_refl a)
      have htail := ih ha' hno' hpre'
      rw [List.cons_append] at hpre ⊢
      rw [findText_cons_of_notPrefix hpre, htail, Option.map_map]
      rfl

theorem notInfix_take_findText {pat : List Char} (hpat : pat ≠ []) {i : Nat}
    (h : findText pat s = some i) : ¬ pat <:+: s.take i := by
  rintro ⟨a, b, heq⟩
  have hsplit : s = a ++ (pat ++ (b ++ s.drop i)) := by
    calc
      s = s.take i ++ s.drop i := (List.take_append_drop i s).symm
      _ = a ++ (pat ++ (b ++ s.drop i)) := by
        rw [← heq]
        simp only [List.append_assoc]
  have hle := (findText_split h).right a _ hsplit
  have hlen := congrArg List.length heq
  have hpos := List.length_pos_iff.mpr hpat
  simp only [List.length_append, List.length_take] at hlen
  omega

theorem pair_infix_append {d x y : Char} (hx : d ≠ x) (hy : d ≠ y) (h : [x, y] <:+: a ++ d :: b) :
    [x, y] <:+: a ∨ [x, y] <:+: b := by
  rcases h with ⟨before, after, heq⟩
  rw [List.append_assoc] at heq
  rcases List.append_eq_append_iff.mp heq with ⟨t, ha, hrest⟩ | ⟨t, hbefore, hrest⟩
  · cases t with
    | nil =>
        injection hrest with hc _
        exact absurd hc.symm hx
    | cons c' t =>
        cases t with
        | nil =>
            injection hrest with _ hrest
            injection hrest with hc _
            exact absurd hc.symm hy
        | cons c'' t =>
            left
            injection hrest with hc hrest
            injection hrest with hc' _
            exact ⟨before, t, by rw [ha, ← hc, ← hc', List.append_assoc]; rfl⟩
  · cases t with
    | nil =>
        injection hrest with hc _
        exact absurd hc hx
    | cons c' t =>
        right
        injection hrest with _ hrest
        exact ⟨t, after, by rw [hrest, List.append_assoc]; rfl⟩

theorem substr_append (a middle b : List Char) :
    substr (a ++ (middle ++ b)) a.length middle.length = middle := by
  unfold substr
  rw [List.drop_left, List.take_left]

theorem cString_of_notMem (hs : '\x00' ∉ s) : cString s = s := by
  apply List.takeWhile_eq_self_iff.mpr
  intro d hd
  simpa using fun heq : d = '\x00' => hs (heq ▸ hd)

theorem cString_append (ha : '\x00' ∉ a) (b : List Char) : cString (a ++ b) = a ++ cString b := by
  apply List.takeWhile_append_of_pos
  intro d hd
  simpa using fun heq : d = '\x00' => ha (heq ▸ hd)

theorem nul_notMem_cString (s : List Char) : '\x00' ∉ cString s := by
  intro hmem
  have hne := List.mem_takeWhile_imp hmem
  simp at hne

end Searches

end Foundation
end PerfMonitor
