import PerfMonitor.Foundation.Numeral
import PerfMonitor.Foundation.Text

/-!
# HTTP responses

A reader for one HTTP/1.1 response on a connection: the status line, the header fields
up to an empty line, and the body, whose end is given by `Content-Length` or by the end
of the connection.  A rendered response reads back as itself whatever its body contains.
-/

namespace PerfMonitor
namespace Foundation
namespace Http

structure Response where
  status : Nat
  reason : List Char
  fields : List (List Char × List Char)
  body : List Char
deriving DecidableEq, Repr

def crlf : List Char :=
  ['\r', '\n']

def version : List Char :=
  "HTTP/1.1".toList

def contentLength : List Char :=
  "Content-Length".toList

/-!
## Reading
-/

def readLine (text : List Char) : Option (List Char × List Char) :=
  (findText crlf text).map (fun i => (text.take i, text.drop (i + 2)))

def splitAtChar (c : Char) (line : List Char) : Option (List Char × List Char) :=
  (findChar c line).map (fun i => (line.take i, line.drop (i + 1)))

def readStatus (line : List Char) : Option (Nat × List Char) :=
  match splitAtChar ' ' line with
  | none => none
  | some (protocol, rest) =>
      match splitAtChar ' ' rest with
      | none => none
      | some (code, reason) =>
          if protocol = version ∧ code.length = 3 ∧ code.all isDigit = true then
            some (digitsValue code, reason)
          else none

def readField (line : List Char) : Option (List Char × List Char) :=
  (splitAtChar ':' line).map (fun p => (p.1, p.2.dropWhile (fun c => c == ' ')))

def readFields : Nat -> List Char -> Option (List (List Char × List Char) × List Char)
  | 0, _ => none
  | fuel + 1, text =>
      match readLine text with
      | none => none
      | some ([], rest) => some ([], rest)
      | some (line, rest) =>
          match readField line, readFields fuel rest with
          | some field, some (fields, rest) => some (field :: fields, rest)
          | _, _ => none

def readBody (fields : List (List Char × List Char)) (rest : List Char) :
    Option (List Char × List Char) :=
  match fields.find? (fun field => field.1 == contentLength) with
  | none => some (rest, [])
  | some field =>
      if isDigits field.2 = true ∧ digitsValue field.2 ≤ rest.length then
        some (rest.take (digitsValue field.2), rest.drop (digitsValue field.2))
      else none

def read (text : List Char) : Option (Response × List Char) :=
  match readLine text with
  | none => none
  | some (line, rest) =>
      match readStatus line, readFields (rest.length + 1) rest with
      | some (status, reason), some (fields, rest) =>
          (readBody fields rest).map (fun p =>
            ({ status := status, reason := reason, fields := fields, body := p.1 }, p.2))
      | _, _ => none

/-!
## Rendering
-/

def renderField (field : List Char × List Char) : List Char :=
  field.1 ++ ':' :: ' ' :: field.2

def renderFields (fields : List (List Char × List Char)) : List Char :=
  fields.flatMap (fun field => renderField field ++ crlf)

def statusLine (status : Nat) (reason : List Char) : List Char :=
  version ++ ' ' :: (Nat.toDigits 10 status ++ ' ' :: reason)

def render (r : Response) : List Char :=
  statusLine r.status r.reason ++ crlf ++ (renderFields r.fields ++ (crlf ++ r.body))

structure FieldOk (field : List Char × List Char) : Prop where
  name : field.1 ≠ [] ∧ ':' ∉ field.1 ∧ '\r' ∉ field.1
  value : field.2.head? ≠ some ' ' ∧ '\r' ∉ field.2

instance (field : List Char × List Char) : Decidable (FieldOk field) :=
  decidable_of_iff
    ((field.1 ≠ [] ∧ ':' ∉ field.1 ∧ '\r' ∉ field.1) ∧
      (field.2.head? ≠ some ' ' ∧ '\r' ∉ field.2))
    ⟨fun h => ⟨h.left, h.right⟩, fun h => ⟨h.name, h.value⟩⟩

structure Response.Valid (r : Response) : Prop where
  status : (Nat.toDigits 10 r.status).length = 3
  reason : '\r' ∉ r.reason
  fields : forall field, field ∈ r.fields -> FieldOk field
  length : forall field, field ∈ r.fields -> field.1 = contentLength ->
    field.2 = Nat.toDigits 10 r.body.length

/-!
## Reading back
-/

theorem readLine_append {line : List Char} (hline : '\r' ∉ line) (rest : List Char) :
    readLine (line ++ (crlf ++ rest)) = some (line, rest) := by
  unfold readLine
  rw [show crlf = '\r' :: ['\n'] from rfl, findText_append hline, Option.map_some,
    List.take_left, ← List.drop_drop, List.drop_left]
  rfl

theorem splitAtChar_append {c : Char} {before : List Char} (hbefore : c ∉ before)
    (after : List Char) : splitAtChar c (before ++ c :: after) = some (before, after) := by
  unfold splitAtChar
  rw [findChar_append hbefore, Option.map_some, List.take_left, ← List.drop_drop, List.drop_left]
  rfl

theorem notMem_toDigits {c : Char} (hc : isDigit c = false) (n : Nat) :
    c ∉ Nat.toDigits 10 n := by
  intro hmem
  rw [isDigit_of_mem_toDigits hmem] at hc
  cases hc

theorem readStatus_statusLine {status : Nat} (hstatus : (Nat.toDigits 10 status).length = 3)
    (reason : List Char) : readStatus (statusLine status reason) = some (status, reason) := by
  have hdigits : (Nat.toDigits 10 status).all isDigit = true :=
    List.all_eq_true.mpr (fun _ hc => isDigit_of_mem_toDigits hc)
  unfold readStatus statusLine
  rw [splitAtChar_append (by decide)]
  dsimp only
  rw [splitAtChar_append (notMem_toDigits (by decide) status)]
  dsimp only
  rw [if_pos ⟨rfl, hstatus, hdigits⟩, digitsValue_toDigits]

theorem readField_renderField {field : List Char × List Char} (h : FieldOk field) :
    readField (renderField field) = some field := by
  unfold readField renderField
  rw [splitAtChar_append h.name.right.left, Option.map_some]
  have hdrop : (' ' :: field.2).dropWhile (fun c => c == ' ') = field.2 := by
    have hhead := h.value.left
    rw [List.dropWhile_cons_of_pos (by decide)]
    cases hvalue : field.2 with
    | nil => rfl
    | cons c rest =>
        apply List.dropWhile_cons_of_neg
        intro hc
        rw [hvalue] at hhead
        exact hhead (by simpa using hc)
  rw [hdrop]

theorem cr_notMem_renderField {field : List Char × List Char} (h : FieldOk field) :
    '\r' ∉ renderField field := by
  intro hmem
  rcases List.mem_append.mp hmem with hname | hrest
  · exact h.name.right.right hname
  · rcases List.mem_cons.mp hrest with hcolon | hrest
    · exact absurd hcolon (by decide)
    · rcases List.mem_cons.mp hrest with hblank | hvalue
      · exact absurd hblank (by decide)
      · exact h.value.right hvalue

theorem readFields_render {fields : List (List Char × List Char)}
    (h : forall field, field ∈ fields -> FieldOk field) (rest : List Char) {fuel : Nat}
    (hfuel : fields.length < fuel) :
    readFields fuel (renderFields fields ++ (crlf ++ rest)) = some (fields, rest) := by
  induction fields generalizing fuel with
  | nil =>
      cases fuel with
      | zero => cases hfuel
      | succ fuel =>
          have hempty : readLine (crlf ++ rest) = some ([], rest) :=
            readLine_append (List.not_mem_nil) rest
          show readFields (fuel + 1) (crlf ++ rest) = _
          unfold readFields
          rw [hempty]
  | cons field others ih =>
      cases fuel with
      | zero => cases hfuel
      | succ fuel =>
          rcases List.forall_mem_cons.mp h with ⟨hfield, hothers⟩
          have hline : renderFields (field :: others) ++ (crlf ++ rest) =
              renderField field ++ (crlf ++ (renderFields others ++ (crlf ++ rest))) := by
            unfold renderFields
            rw [List.flatMap_cons, List.append_assoc, List.append_assoc]
          have hrest := ih hothers (Nat.lt_of_succ_lt_succ hfuel)
          have hread := readField_renderField hfield
          have hne : renderField field ≠ [] := by
            intro hnil
            exact hfield.name.left (List.append_eq_nil_iff.mp hnil).left
          rw [hline]
          unfold readFields
          rw [readLine_append (cr_notMem_renderField hfield)]
          cases hrender : renderField field with
          | nil => exact absurd hrender hne
          | cons c line =>
              rw [hrender] at hread
              dsimp only
              rw [hread, hrest]

theorem length_le_renderFields (fields : List (List Char × List Char)) :
    fields.length ≤ (renderFields fields).length := by
  induction fields with
  | nil => exact Nat.le_refl 0
  | cons field others ih =>
      have hcons : renderFields (field :: others) =
          renderField field ++ crlf ++ renderFields others := List.flatMap_cons
      have hcrlf : crlf.length = 2 := rfl
      rw [hcons, List.length_append, List.length_append, hcrlf, List.length_cons]
      omega

theorem readBody_render {r : Response} (h : r.Valid) :
    readBody r.fields r.body = some (r.body, []) := by
  unfold readBody
  cases hfind : r.fields.find? (fun field => field.1 == contentLength) with
  | none => rfl
  | some field =>
      have hname : field.1 = contentLength := by
        have hfound := List.find?_some hfind
        simpa using hfound
      have hvalue := h.length field (List.mem_of_find?_eq_some hfind) hname
      have hdigits : isDigits (Nat.toDigits 10 r.body.length) = true :=
        ((Bool.and_eq_true _ _).mp (isInteger_toDigits _)).left
      dsimp only
      rw [hvalue, digitsValue_toDigits, if_pos ⟨hdigits, Nat.le_refl _⟩, List.take_length,
        List.drop_length]

/-- A rendered response is read back whole, and nothing is left on the connection. -/
theorem read_render {r : Response} (h : r.Valid) : read (render r) = some (r, []) := by
  have hline : '\r' ∉ statusLine r.status r.reason := by
    unfold statusLine
    simp only [List.mem_append, List.mem_cons, not_or]
    exact ⟨by decide, by decide, notMem_toDigits (by decide) _, by decide, h.reason⟩
  have hfuel : r.fields.length < (renderFields r.fields ++ (crlf ++ r.body)).length + 1 := by
    have hle := length_le_renderFields r.fields
    rw [List.length_append]
    omega
  unfold read render
  rw [List.append_assoc, readLine_append hline]
  dsimp only
  rw [readStatus_statusLine h.status, readFields_render h.fields r.body hfuel]
  dsimp only
  rw [readBody_render h]
  rfl

end Http
end Foundation
end PerfMonitor
