import PerfMonitor.Foundation.Numeral
import PerfMonitor.Foundation.QuotedText
import PerfMonitor.Foundation.Separated

/-!
# JSON

A reader of JSON texts, and a calculus of texts that spell a given value.  A text
spells a value under a condition when the reader, met with this text before anything
that does not continue a numeral, returns that value exactly when the condition
holds, and then consumes exactly this text.  Strings written between quotes as they
are spell themselves when they are clean; objects and arrays spell what their parts
spell, under the conditions of all their parts.
-/

namespace PerfMonitor
namespace Foundation

/-- A JSON value.  Numbers are kept as they are written. -/
inductive JsonValue where
  | null
  | bool (value : Bool)
  | number (numeral : List Char)
  | string (text : List Char)
  | array (elements : List JsonValue)
  | object (members : List (List Char × JsonValue))

namespace Json

/-!
## Strings
-/

def hexDigit (c : Char) : Option Nat :=
  if isDigit c then some (c.toNat - '0'.toNat)
  else if 'a' ≤ c ∧ c ≤ 'f' then some (c.toNat - 'a'.toNat + 10)
  else if 'A' ≤ c ∧ c ≤ 'F' then some (c.toNat - 'A'.toNat + 10)
  else none

def codeUnit : List Char -> Option (Nat × List Char)
  | a :: b :: c :: d :: rest =>
      match hexDigit a, hexDigit b, hexDigit c, hexDigit d with
      | some a, some b, some c, some d => some (((a * 16 + b) * 16 + c) * 16 + d, rest)
      | _, _, _, _ => none
  | _ => none

def isHighSurrogate (n : Nat) : Bool :=
  decide (0xd800 ≤ n) && decide (n < 0xdc00)

def isLowSurrogate (n : Nat) : Bool :=
  decide (0xdc00 ≤ n) && decide (n < 0xe000)

/-- The second half of a surrogate pair, with its own `\u`. -/
def lowSurrogate : List Char -> Option (Nat × List Char)
  | c :: d :: rest =>
      if c = '\\' ∧ d = 'u' then (codeUnit rest).filter (fun p => isLowSurrogate p.1) else none
  | _ => none

/-- What follows `\u`.  A surrogate without its other half is read as the
replacement character. -/
def unicodeEscape (text : List Char) : Option (Char × List Char) :=
  match codeUnit text with
  | none => none
  | some (n, rest) =>
      if isHighSurrogate n then
        match lowSurrogate rest with
        | some (m, rest') =>
            some (Char.ofNat (0x10000 + (n - 0xd800) * 0x400 + (m - 0xdc00)), rest')
        | none => some ('\ufffd', rest)
      else if isLowSurrogate n then some ('\ufffd', rest)
      else some (Char.ofNat n, rest)

def simpleEscapes : List (Char × Char) :=
  [('"', '"'), ('\\', '\\'), ('/', '/'), ('b', '\x08'), ('f', '\x0c'), ('n', '\n'), ('r', '\r'),
   ('t', '\t')]

def unescape : List Char -> Option (Char × List Char)
  | [] => none
  | c :: rest =>
      if c = 'u' then unicodeEscape rest else (simpleEscapes.lookup c).map (fun d => (d, rest))

theorem hexDigit_ne_quote {c : Char} {n : Nat} (h : hexDigit c = some n) : '"' ≠ c := by
  intro heq
  rw [← heq] at h
  cases h

theorem codeUnit_splits {text rest : List Char} {n : Nat} (h : codeUnit text = some (n, rest)) :
    exists seq, text = seq ++ rest ∧ '"' ∉ seq := by
  unfold codeUnit at h
  split at h
  next a b c d rest' =>
    split at h
    next ha hb hc hd =>
      injection h with h
      injection h with _ hrest
      refine ⟨[a, b, c, d], by rw [hrest]; rfl, ?_⟩
      simp only [List.mem_cons, List.not_mem_nil, or_false, not_or]
      exact ⟨hexDigit_ne_quote ha, hexDigit_ne_quote hb, hexDigit_ne_quote hc,
        hexDigit_ne_quote hd⟩
    · cases h
  · cases h

theorem lowSurrogate_splits {text rest : List Char} {n : Nat}
    (h : lowSurrogate text = some (n, rest)) : exists seq, text = seq ++ rest ∧ '"' ∉ seq := by
  unfold lowSurrogate at h
  split at h
  next c d tail =>
    split at h
    next hcd =>
      rcases codeUnit_splits (Option.filter_eq_some_iff.mp h).left with ⟨seq, htail, hseq⟩
      refine ⟨'\\' :: 'u' :: seq, by rw [hcd.left, hcd.right, htail]; rfl, ?_⟩
      simp only [List.mem_cons, not_or]
      exact ⟨by decide, by decide, hseq⟩
    · cases h
  · cases h

theorem unicodeEscape_splits {text rest : List Char} {c : Char}
    (h : unicodeEscape text = some (c, rest)) : exists seq, text = seq ++ rest ∧ '"' ∉ seq := by
  unfold unicodeEscape at h
  split at h
  · cases h
  next n tail hunit =>
    rcases codeUnit_splits hunit with ⟨seq, htext, hseq⟩
    split at h
    · split at h
      next m tail' hlow =>
        injection h with h
        injection h with _ hrest
        rcases lowSurrogate_splits hlow with ⟨seq', htail, hseq'⟩
        refine ⟨seq ++ seq', by rw [htext, htail, hrest, List.append_assoc], ?_⟩
        rw [List.mem_append, not_or]
        exact ⟨hseq, hseq'⟩
      · injection h with h
        injection h with _ hrest
        exact ⟨seq, by rw [htext, hrest], hseq⟩
    · split at h
      · injection h with h
        injection h with _ hrest
        exact ⟨seq, by rw [htext, hrest], hseq⟩
      · injection h with h
        injection h with _ hrest
        exact ⟨seq, by rw [htext, hrest], hseq⟩

theorem unescape_splits (text : List Char) (c : Char) (rest : List Char)
    (h : unescape text = some (c, rest)) :
    exists seq, text = seq ++ rest ∧ seq ≠ [] ∧ ((seq = ['"'] ∧ c = '"') ∨ '"' ∉ seq) := by
  cases text with
  | nil => cases h
  | cons d tail =>
      simp only [unescape] at h
      split at h
      next hd =>
        rcases unicodeEscape_splits h with ⟨seq, htail, hseq⟩
        refine ⟨d :: seq, by rw [htail]; rfl, List.cons_ne_nil _ _, Or.inr ?_⟩
        rw [List.mem_cons, not_or]
        refine ⟨?_, hseq⟩
        rw [hd]
        decide
      · rcases Option.map_eq_some_iff.mp h with ⟨e, hlookup, hpair⟩
        injection hpair with hc hrest
        refine ⟨[d], by rw [← hrest]; rfl, List.cons_ne_nil _ _, ?_⟩
        by_cases hd : d = '"'
        · left
          rw [hd] at hlookup ⊢
          have he : some '"' = some e := hlookup
          exact ⟨rfl, by rw [← hc, ← Option.some.inj he]⟩
        · right
          intro hmem
          exact hd (List.mem_singleton.mp hmem).symm

def quoted : QuotedFormat where
  unescape := unescape
  plain c := decide (0x20 ≤ c.toNat)
  unescape_splits := unescape_splits

/-!
## The reader
-/

def isBlank (c : Char) : Bool :=
  c == ' ' || c == '\t' || c == '\n' || c == '\r'

def skipBlanks (text : List Char) : List Char :=
  text.dropWhile isBlank

def keyword (text : List Char) : Option (JsonValue × List Char) :=
  if "null".toList.isPrefixOf text then some (.null, text.drop 4)
  else if "true".toList.isPrefixOf text then some (.bool true, text.drop 4)
  else if "false".toList.isPrefixOf text then some (.bool false, text.drop 5)
  else none

def parseAtom (text : List Char) : Option (JsonValue × List Char) :=
  if isNumeral (text.takeWhile isNumberChar) then
    some (.number (text.takeWhile isNumberChar), text.dropWhile isNumberChar)
  else keyword text

def parseKey (text : List Char) : Option (List Char × List Char) :=
  (expectChar isBlank '"' text).bind fun rest =>
    (quoted.readString rest).bind fun p =>
      (expectChar isBlank ':' p.2).map fun rest => (p.1, rest)

mutual

def parseValue : Nat -> List Char -> Option (JsonValue × List Char)
  | 0, _ => none
  | fuel + 1, text =>
      match skipBlanks text with
      | [] => none
      | c :: rest =>
          if c = '"' then (quoted.readString rest).map fun p => (.string p.1, p.2)
          else if c = '[' then
            match expectChar isBlank ']' rest with
            | some rest => some (.array [], rest)
            | none => (parseElements fuel rest).map fun p => (.array p.1, p.2)
          else if c = '\x7b' then
            match expectChar isBlank '\x7d' rest with
            | some rest => some (.object [], rest)
            | none => (parseMembers fuel rest).map fun p => (.object p.1, p.2)
          else parseAtom (c :: rest)

def parseElements : Nat -> List Char -> Option (List JsonValue × List Char)
  | 0, _ => none
  | fuel + 1, text =>
      (parseValue fuel text).bind fun p =>
        match expectChar isBlank ',' p.2 with
        | some rest => (parseElements fuel rest).map fun q => (p.1 :: q.1, q.2)
        | none => (expectChar isBlank ']' p.2).map fun rest => ([p.1], rest)

def parseMembers : Nat -> List Char -> Option (List (List Char × JsonValue) × List Char)
  | 0, _ => none
  | fuel + 1, text =>
      (parseKey text).bind fun k =>
        (parseValue fuel k.2).bind fun p =>
          match expectChar isBlank ',' p.2 with
          | some rest => (parseMembers fuel rest).map fun q => ((k.1, p.1) :: q.1, q.2)
          | none => (expectChar isBlank '\x7d' p.2).map fun rest => ([(k.1, p.1)], rest)

end

def parseJson (text : List Char) : Option JsonValue :=
  (parseValue (text.length + 1) text).bind fun p =>
    if skipBlanks p.2 = [] then some p.1 else none

/-!
## Blanks and punctuation
-/

section Blanks

variable {gap : List Char} (hgap : forall c, c ∈ gap -> isBlank c = true)

include hgap

theorem skipBlanks_append (text : List Char) : skipBlanks (gap ++ text) = skipBlanks text :=
  List.dropWhile_append_of_pos hgap

theorem parseValue_blanks (fuel : Nat) (text : List Char) :
    parseValue fuel (gap ++ text) = parseValue fuel text := by
  cases fuel with
  | zero => rfl
  | succ fuel =>
      unfold parseValue
      rw [skipBlanks_append hgap]

theorem stopsAt_blanks {c : Char} (hc : isNumberChar c = false) (rest : List Char) :
    StopsAt isNumberChar (gap ++ c :: rest) := by
  cases gap with
  | nil => exact stopsAt_cons hc rest
  | cons d gap =>
      have hd := hgap d List.mem_cons_self
      apply stopsAt_cons
      simp only [isBlank, Bool.or_eq_true, beq_iff_eq] at hd
      rcases hd with ((heq | heq) | heq) | heq <;> (rw [heq]; decide)

end Blanks

/-!
## Texts that spell a value
-/

structure Spells (text : List Char) (value : JsonValue) (ok : Prop) : Prop where
  sound : forall {fuel : Nat} {rest rest' : List Char}, StopsAt isNumberChar rest ->
    parseValue fuel (text ++ rest) = some (value, rest') -> ok ∧ rest' = rest
  complete : ok -> forall {fuel : Nat} {rest : List Char}, StopsAt isNumberChar rest ->
    text.length < fuel -> parseValue fuel (text ++ rest) = some (value, rest)

theorem Spells.parseJson_iff {text : List Char} {value : JsonValue} {ok : Prop}
    (h : Spells text value ok) : parseJson text = some value <-> ok := by
  unfold parseJson
  constructor
  · intro hparse
    rcases Option.bind_eq_some_iff.mp hparse with ⟨⟨value', rest'⟩, hvalue, hend⟩
    dsimp only at hend
    split at hend
    · injection hend with hend
      rw [hend, ← List.append_nil text] at hvalue
      exact (h.sound (stopsAt_nil _) hvalue).left
    · cases hend
  · intro hok
    have hvalue := h.complete hok (stopsAt_nil _) (Nat.lt_succ_self text.length)
    rw [List.append_nil] at hvalue
    rw [hvalue]
    rfl

theorem Spells.blanks {gap text : List Char} {value : JsonValue} {ok : Prop}
    (hgap : forall c, c ∈ gap -> isBlank c = true) (h : Spells text value ok) :
    Spells (gap ++ text) value ok where
  sound hstop hparse := by
    rw [List.append_assoc, parseValue_blanks hgap] at hparse
    exact h.sound hstop hparse
  complete hok _ _ hstop hfuel := by
    rw [List.append_assoc, parseValue_blanks hgap]
    apply h.complete hok hstop
    rw [List.length_append] at hfuel
    omega

theorem parseValue_quote (fuel : Nat) (rest : List Char) :
    parseValue (fuel + 1) ('"' :: rest) =
      (quoted.readString rest).map fun p => (.string p.1, p.2) := by
  simp [parseValue, skipBlanks, isBlank]

theorem spells_string (text : List Char) :
    Spells ('"' :: (text ++ ['"'])) (.string text) (quoted.Clean text) where
  sound {fuel rest rest'} hstop hparse := by
    cases fuel with
    | zero => cases hparse
    | succ fuel =>
        rw [List.cons_append, List.append_assoc, parseValue_quote] at hparse
        rcases Option.map_eq_some_iff.mp hparse with ⟨⟨text', tail⟩, hread, hpair⟩
        injection hpair with hvalue hrest
        injection hvalue with htext
        dsimp only at htext hrest
        rw [htext, hrest] at hread
        exact quoted.clean_of_readString hread
  complete hok fuel rest hstop hfuel := by
    cases fuel with
    | zero => exact absurd hfuel (Nat.not_lt_zero _)
    | succ fuel =>
        rw [List.cons_append, List.append_assoc, parseValue_quote]
        show (quoted.readString (text ++ '"' :: rest)).map _ = _
        rw [quoted.readString_of_clean hok]
        rfl

theorem parseValue_numberChar {c : Char} (hc : isNumberChar c = true) (fuel : Nat)
    (rest : List Char) : parseValue (fuel + 1) (c :: rest) = parseAtom (c :: rest) := by
  have hblank : isBlank c = false := by
    simp only [isBlank, Bool.or_eq_false_iff, beq_eq_false_iff_ne]
    exact ⟨⟨⟨ne_of_kind hc rfl, ne_of_kind hc rfl⟩, ne_of_kind hc rfl⟩, ne_of_kind hc rfl⟩
  have hskip : skipBlanks (c :: rest) = c :: rest :=
    List.dropWhile_cons_of_neg (by rw [hblank]; exact Bool.false_ne_true)
  unfold parseValue
  rw [hskip]
  dsimp only
  rw [if_neg (ne_of_kind hc rfl), if_neg (ne_of_kind hc rfl), if_neg (ne_of_kind hc rfl)]

theorem parseValue_numeral {numeral : List Char} (h : isNumeral numeral = true) (fuel : Nat)
    {rest : List Char} (hstop : StopsAt isNumberChar rest) :
    parseValue (fuel + 1) (numeral ++ rest) = some (.number numeral, rest) := by
  have hchars := fun c (hc : c ∈ numeral) => isNumberChar_of_isNumeral h hc
  have hatom : parseAtom (numeral ++ rest) = some (.number numeral, rest) := by
    unfold parseAtom
    rw [takeWhile_span hchars hstop, dropWhile_span hchars hstop, if_pos h]
  cases numeral with
  | nil => exact absurd rfl (isNumeral_ne_nil h)
  | cons c numeral =>
      rw [← hatom]
      exact parseValue_numberChar (hchars c List.mem_cons_self) fuel (numeral ++ rest)

theorem spells_numeral {numeral : List Char} (h : isNumeral numeral = true) :
    Spells numeral (.number numeral) True where
  sound {fuel rest rest'} hstop hparse := by
    cases fuel with
    | zero => cases hparse
    | succ fuel =>
        rw [parseValue_numeral h fuel hstop] at hparse
        injection hparse with hpair
        injection hpair with _ hrest
        exact ⟨trivial, hrest.symm⟩
  complete _ fuel rest hstop hfuel := by
    cases fuel with
    | zero => exact absurd hfuel (Nat.not_lt_zero _)
    | succ fuel => exact parseValue_numeral h fuel hstop

def Faithful (p : Item JsonValue) : Prop :=
  Spells p.text p.value p.ok

def ofString (text : List Char) : Item JsonValue where
  text := '"' :: (text ++ ['"'])
  value := .string text
  ok := quoted.Clean text

def ofNumeral (numeral : List Char) : Item JsonValue where
  text := numeral
  value := .number numeral
  ok := True

theorem faithful_ofString (text : List Char) : Faithful (ofString text) :=
  spells_string text

theorem faithful_ofNumeral {numeral : List Char} (h : isNumeral numeral = true) :
    Faithful (ofNumeral numeral) :=
  spells_numeral h

/-!
## Arrays
-/

theorem parseElements_cons {fuel : Nat} {text rest : List Char} {value : JsonValue}
    {values : List JsonValue} (h : parseElements (fuel + 1) text = some (value :: values, rest)) :
    exists tail, parseValue fuel text = some (value, tail) ∧
      ((exists next, expectChar isBlank ',' tail = some next ∧
          parseElements fuel next = some (values, rest)) ∨
        (expectChar isBlank ',' tail = none ∧ expectChar isBlank ']' tail = some rest)) := by
  unfold parseElements at h
  rcases Option.bind_eq_some_iff.mp h with ⟨⟨value', tail⟩, hvalue, htail⟩
  dsimp only at htail
  split at htail
  next next hcomma =>
    rcases Option.map_eq_some_iff.mp htail with ⟨⟨values', rest'⟩, hnext, hpair⟩
    rcases Prod.mk.inj hpair with ⟨hlist, hrest⟩
    rcases List.cons.inj hlist with ⟨hhead, hvalues⟩
    dsimp only at hhead hvalues hrest
    rw [hvalues, hrest] at hnext
    rw [hhead] at hvalue
    exact ⟨tail, hvalue, Or.inl ⟨next, hcomma, hnext⟩⟩
  next hcomma =>
    rcases Option.map_eq_some_iff.mp htail with ⟨rest', hclose, hpair⟩
    rcases Prod.mk.inj hpair with ⟨hlist, hrest⟩
    rw [hrest] at hclose
    rw [(List.cons.inj hlist).left] at hvalue
    exact ⟨tail, hvalue, Or.inr ⟨hcomma, hclose⟩⟩

theorem Faithful.readBy {gap : List Char} (hgap : forall c, c ∈ gap -> isBlank c = true)
    {p : Item JsonValue} (hp : Faithful p) : p.ReadBy parseElements (gap ++ [']']) where
  sound_comma {fuel next rest values} h := by
    cases fuel with
    | zero => cases h
    | succ fuel =>
        rcases parseElements_cons h with ⟨tail, hvalue, htail⟩
        rcases hp.sound (stopsAt_cons rfl _) hvalue with ⟨hok, hsame⟩
        rw [hsame, expectChar_cons rfl] at htail
        rcases htail with ⟨next', hcomma, hnext⟩ | ⟨hcomma, _⟩
        · injection hcomma with hcomma
          rw [← hcomma] at hnext
          exact ⟨hok, fuel, hnext⟩
        · cases hcomma
  sound_closing {fuel rest rest'} h := by
    cases fuel with
    | zero => cases h
    | succ fuel =>
        rw [List.append_assoc] at h
        rcases parseElements_cons h with ⟨tail, hvalue, htail⟩
        rcases hp.sound (stopsAt_blanks hgap rfl rest) hvalue with ⟨hok, hsame⟩
        rw [hsame, expectChar_other hgap rfl (by decide), expectChar_self hgap rfl] at htail
        rcases htail with ⟨next', hcomma, _⟩ | ⟨_, hclose⟩
        · cases hcomma
        · injection hclose with hclose
          exact ⟨hok, hclose.symm⟩
  complete_comma hok {fuel next rest values} hfuel hnext := by
    have hvalue := hp.complete hok (stopsAt_cons (c := ',') rfl next) hfuel
    unfold parseElements
    rw [hvalue, Option.bind_some]
    dsimp only
    rw [expectChar_cons rfl]
    dsimp only
    rw [hnext]
    rfl
  complete_closing hok {fuel} rest hfuel := by
    have hvalue := hp.complete hok (stopsAt_blanks hgap (c := ']') rfl rest) hfuel
    unfold parseElements
    rw [List.append_assoc, List.singleton_append, hvalue, Option.bind_some]
    dsimp only
    rw [expectChar_other hgap rfl (by decide), expectChar_self hgap rfl]
    rfl

theorem expectChar_close_of_parseValue {fuel : Nat} {text rest : List Char} {value : JsonValue}
    (h : parseValue fuel text = some (value, rest)) : expectChar isBlank ']' text = none := by
  cases fuel with
  | zero => cases h
  | succ fuel =>
      unfold parseValue skipBlanks at h
      unfold expectChar
      cases hskip : text.dropWhile isBlank with
      | nil => rfl
      | cons c tail =>
          rw [hskip] at h
          apply if_neg
          intro hc
          rw [hc] at h
          cases h

theorem parseValue_bracket (fuel : Nat) (rest : List Char) :
    parseValue (fuel + 1) ('[' :: rest) =
      match expectChar isBlank ']' rest with
      | some rest => some (.array [], rest)
      | none => (parseElements fuel rest).map fun p => (.array p.1, p.2) := by
  simp [parseValue, skipBlanks, isBlank]

def arrayText (gap : List Char) : List (Item JsonValue) -> List Char
  | [] => '[' :: (gap ++ [']'])
  | p :: ps => '[' :: (separated p ps ++ (gap ++ [']']))

theorem spells_array {gap : List Char} (hgap : forall c, c ∈ gap -> isBlank c = true)
    {pieces : List (Item JsonValue)} (hall : forall p, p ∈ pieces -> Faithful p) :
    Spells (arrayText gap pieces) (.array (pieces.map Item.value))
      (forall p, p ∈ pieces -> p.ok) where
  sound {fuel rest rest'} hstop hparse := by
    cases fuel with
    | zero => cases hparse
    | succ fuel =>
        cases pieces with
        | nil =>
            unfold arrayText at hparse
            rw [List.cons_append, List.append_assoc, parseValue_bracket, List.cons_append,
              expectChar_self hgap rfl] at hparse
            injection hparse with hpair
            refine ⟨?_, (Prod.mk.inj hpair).right.symm⟩
            intro p hp
            cases hp
        | cons p ps =>
            unfold arrayText at hparse
            rw [List.cons_append, List.append_assoc, parseValue_bracket] at hparse
            split at hparse
            · injection hparse with hpair
              cases (Prod.mk.inj hpair).left
            · rcases Option.map_eq_some_iff.mp hparse with ⟨⟨values, tail⟩, hread, hpair⟩
              rcases Prod.mk.inj hpair with ⟨hvalue, hrest⟩
              injection hvalue with hvalues
              dsimp only at hvalues hrest
              rw [hvalues, hrest] at hread
              exact separated_sound (fun q hq => (hall q hq).readBy hgap) hread
  complete hok fuel rest hstop hfuel := by
    cases fuel with
    | zero => exact absurd hfuel (Nat.not_lt_zero _)
    | succ fuel =>
        cases pieces with
        | nil =>
            unfold arrayText
            rw [List.cons_append, List.append_assoc, parseValue_bracket, List.cons_append,
              expectChar_self hgap rfl]
            rfl
        | cons p ps =>
            unfold arrayText at hfuel ⊢
            simp only [List.length_cons, List.length_append] at hfuel
            have hroom : (separated p ps).length + 1 < fuel := by omega
            have helements :=
              separated_complete (fun q hq => (hall q hq).readBy hgap) hok hroom rest
            have hopen :
                expectChar isBlank ']' (separated p ps ++ ((gap ++ [']']) ++ rest)) = none := by
              cases fuel with
              | zero => cases helements
              | succ fuel =>
                  rcases parseElements_cons helements with ⟨tail, hvalue, _⟩
                  exact expectChar_close_of_parseValue hvalue
            rw [List.cons_append, List.append_assoc, parseValue_bracket, hopen]
            dsimp only
            rw [helements]
            rfl

/-!
## Objects
-/

def member (key : List Char) (p : Item JsonValue) : Item (List Char × JsonValue) where
  text := '"' :: (key ++ '"' :: ':' :: p.text)
  value := (key, p.value)
  ok := p.ok

theorem parseKey_of_clean {key : List Char} (h : quoted.Clean key) (rest : List Char) :
    parseKey ('"' :: (key ++ '"' :: ':' :: rest)) = some (key, rest) := by
  unfold parseKey
  rw [expectChar_cons rfl, Option.bind_some, quoted.readString_of_clean h, Option.bind_some,
    expectChar_cons rfl]
  rfl

theorem member_text_append (key : List Char) (p : Item JsonValue) (rest : List Char) :
    (member key p).text ++ rest = '"' :: (key ++ '"' :: ':' :: (p.text ++ rest)) := by
  unfold member
  rw [List.cons_append, List.append_assoc]
  rfl

theorem parseMembers_cons {fuel : Nat} {text rest : List Char} {member : List Char × JsonValue}
    {members : List (List Char × JsonValue)}
    (h : parseMembers (fuel + 1) text = some (member :: members, rest)) :
    exists inner tail, parseKey text = some (member.1, inner) ∧
      parseValue fuel inner = some (member.2, tail) ∧
      ((exists next, expectChar isBlank ',' tail = some next ∧
          parseMembers fuel next = some (members, rest)) ∨
        (expectChar isBlank ',' tail = none ∧ expectChar isBlank '\x7d' tail = some rest)) := by
  unfold parseMembers at h
  rcases Option.bind_eq_some_iff.mp h with ⟨⟨key, inner⟩, hkey, h⟩
  rcases Option.bind_eq_some_iff.mp h with ⟨⟨value, tail⟩, hvalue, htail⟩
  dsimp only at hvalue htail
  split at htail
  next next hcomma =>
    rcases Option.map_eq_some_iff.mp htail with ⟨⟨members', rest'⟩, hnext, hpair⟩
    rcases Prod.mk.inj hpair with ⟨hlist, hrest⟩
    rcases List.cons.inj hlist with ⟨hhead, hmembers⟩
    dsimp only at hhead hmembers hrest
    rw [hmembers, hrest] at hnext
    rw [← hhead]
    exact ⟨inner, tail, hkey, hvalue, Or.inl ⟨next, hcomma, hnext⟩⟩
  next hcomma =>
    rcases Option.map_eq_some_iff.mp htail with ⟨rest', hclose, hpair⟩
    rcases Prod.mk.inj hpair with ⟨hlist, hrest⟩
    rw [hrest] at hclose
    rw [← (List.cons.inj hlist).left]
    exact ⟨inner, tail, hkey, hvalue, Or.inr ⟨hcomma, hclose⟩⟩

section Members

variable {key : List Char} (hkey : quoted.Clean key) {p : Item JsonValue} (hp : Faithful p)

include hkey hp

theorem parseMembers_member {fuel : Nat} {after rest : List Char}
    (hafter : StopsAt isNumberChar after) {members : List (List Char × JsonValue)}
    (h : parseMembers fuel ((member key p).text ++ after) =
      some ((member key p).value :: members, rest)) :
    p.ok ∧ exists fuel',
      ((exists next, expectChar isBlank ',' after = some next ∧
          parseMembers fuel' next = some (members, rest)) ∨
        (expectChar isBlank ',' after = none ∧ expectChar isBlank '\x7d' after = some rest)) := by
  cases fuel with
  | zero => cases h
  | succ fuel =>
      rcases parseMembers_cons h with ⟨inner, tail, hname, hvalue, htail⟩
      rw [member_text_append, parseKey_of_clean hkey] at hname
      injection hname with hname
      rw [← (Prod.mk.inj hname).right] at hvalue
      rcases hp.sound hafter hvalue with ⟨hok, hsame⟩
      rw [hsame] at htail
      exact ⟨hok, fuel, htail⟩

theorem parseMembers_succ {fuel : Nat} (hfuel : (member key p).text.length < fuel)
    {after : List Char} (hafter : StopsAt isNumberChar after) (hok : p.ok) :
    parseMembers (fuel + 1) ((member key p).text ++ after) =
      match expectChar isBlank ',' after with
      | some rest =>
          (parseMembers fuel rest).map fun q => ((member key p).value :: q.1, q.2)
      | none =>
          (expectChar isBlank '\x7d' after).map fun rest => ([(member key p).value], rest) := by
  have hroom : p.text.length < fuel := by
    simp only [member, List.length_cons, List.length_append] at hfuel
    omega
  rw [parseMembers, member_text_append, parseKey_of_clean hkey, Option.bind_some]
  dsimp only
  rw [hp.complete hok hafter hroom, Option.bind_some]
  rfl

theorem readBy_member : (member key p).ReadBy parseMembers ['\x7d'] where
  sound_comma {fuel next rest values} h := by
    rcases parseMembers_member hkey hp (stopsAt_cons rfl _) h with ⟨hok, fuel', htail⟩
    rw [expectChar_cons rfl] at htail
    rcases htail with ⟨next', hcomma, hnext⟩ | ⟨hcomma, _⟩
    · injection hcomma with hcomma
      rw [← hcomma] at hnext
      exact ⟨hok, fuel', hnext⟩
    · cases hcomma
  sound_closing {fuel rest rest'} h := by
    rw [List.singleton_append] at h
    rcases parseMembers_member hkey hp (stopsAt_cons rfl _) h with ⟨hok, fuel', htail⟩
    rw [expectChar_cons_ne rfl (by decide), expectChar_cons rfl] at htail
    rcases htail with ⟨next', hcomma, _⟩ | ⟨_, hclose⟩
    · cases hcomma
    · injection hclose with hclose
      exact ⟨hok, hclose.symm⟩
  complete_comma hok {fuel next rest values} hfuel hnext := by
    rw [parseMembers_succ hkey hp hfuel (stopsAt_cons rfl _) hok, expectChar_cons rfl]
    dsimp only
    rw [hnext]
    rfl
  complete_closing hok {fuel} rest hfuel := by
    rw [List.singleton_append, parseMembers_succ hkey hp hfuel (stopsAt_cons rfl _) hok,
      expectChar_cons_ne rfl (by decide), expectChar_cons rfl]
    rfl

end Members

theorem expectChar_close_of_parseMembers {fuel : Nat} {text : List Char}
    {result : List (List Char × JsonValue) × List Char} (h : parseMembers fuel text = some result) :
    expectChar isBlank '\x7d' text = none := by
  cases fuel with
  | zero => cases h
  | succ fuel =>
      unfold parseMembers parseKey at h
      rcases Option.bind_eq_some_iff.mp h with ⟨_, hkey, _⟩
      rcases Option.bind_eq_some_iff.mp hkey with ⟨rest, hquote, _⟩
      exact expectChar_of_other hquote (by decide)

theorem parseValue_brace (fuel : Nat) (rest : List Char) :
    parseValue (fuel + 1) ('\x7b' :: rest) =
      match expectChar isBlank '\x7d' rest with
      | some rest => some (.object [], rest)
      | none => (parseMembers fuel rest).map fun p => (.object p.1, p.2) := by
  simp [parseValue, skipBlanks, isBlank]

def objectText (p : Item (List Char × JsonValue)) (ps : List (Item (List Char × JsonValue))) :
    List Char :=
  '\x7b' :: (separated p ps ++ ['\x7d'])

theorem spells_object {p : Item (List Char × JsonValue)} {ps : List (Item (List Char × JsonValue))}
    (hall : forall q, q ∈ p :: ps -> q.ReadBy parseMembers ['\x7d']) :
    Spells (objectText p ps) (.object ((p :: ps).map Item.value))
      (forall q, q ∈ p :: ps -> q.ok) where
  sound {fuel rest rest'} hstop hparse := by
    cases fuel with
    | zero => cases hparse
    | succ fuel =>
        unfold objectText at hparse
        rw [List.cons_append, List.append_assoc, parseValue_brace] at hparse
        split at hparse
        · injection hparse with hpair
          cases (Prod.mk.inj hpair).left
        · rcases Option.map_eq_some_iff.mp hparse with ⟨⟨members, tail⟩, hread, hpair⟩
          rcases Prod.mk.inj hpair with ⟨hvalue, hrest⟩
          injection hvalue with hmembers
          dsimp only at hmembers hrest
          rw [hmembers, hrest] at hread
          exact separated_sound hall hread
  complete hok fuel rest hstop hfuel := by
    cases fuel with
    | zero => exact absurd hfuel (Nat.not_lt_zero _)
    | succ fuel =>
        have hroom : (separated p ps).length + 1 < fuel := by
          unfold objectText at hfuel
          simp only [List.length_cons, List.length_append, List.length_nil] at hfuel
          omega
        have hmembers := separated_complete hall hok hroom rest
        unfold objectText
        rw [List.cons_append, List.append_assoc, parseValue_brace,
          expectChar_close_of_parseMembers hmembers]
        dsimp only
        rw [hmembers]
        rfl

end Json
end Foundation
end PerfMonitor
