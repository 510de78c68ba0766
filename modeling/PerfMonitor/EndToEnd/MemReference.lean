import PerfMonitor.Foundation.Awk
import PerfMonitor.Worker.MemMonitor

/-!
# The reference of the memory usage

`mem_ref` of `scripts/benchmark_resource_metric_accuracy.sh` computes the used share
of the memory from the second fields of four lines of `/proc/meminfo`.  It does not
look at the unit; where the four lines have one, it finds what the monitor finds.
Numbers are exact, and the result is the one handed to `printf`.
-/

namespace PerfMonitor
namespace EndToEnd

open Foundation Worker

structure MemRef where
  total : Awk.Value := .uninitialized
  free : Awk.Value := .uninitialized
  cached : Awk.Value := .uninitialized
  buffers : Awk.Value := .uninitialized
deriving DecidableEq, Repr

inductive Reference where
  | percent (value : Rat)
  | nan
  | divisionByZero
deriving DecidableEq, Repr

namespace MemRef

/-- `$1=="name" {var=$2}`. -/
def assign (record : Str) (name : String) (var : Awk.Value) : Awk.Value :=
  if (Awk.field record 1).text = name.toList then Awk.field record 2 else var

def rules (vars : MemRef) (record : Str) : MemRef where
  total := assign record "MemTotal:" vars.total
  free := assign record "MemFree:" vars.free
  cached := assign record "Cached:" vars.cached
  buffers := assign record "Buffers:" vars.buffers

/-- The `END` rule. -/
def report (vars : MemRef) : Reference :=
  if vars.total.isPositive then
    let used := vars.total.number - vars.free.number - vars.cached.number - vars.buffers.number
    if vars.total.number = 0 then .divisionByZero
    else .percent (used * 100 / vars.total.number)
  else .nan

end MemRef

def memRef (content : Str) : Reference :=
  ((lines content).foldl MemRef.rules {}).report

/-!
## The fields of a row
-/

theorem isWord_toDigits (n : Nat) : IsWord (Nat.toDigits 10 n) :=
  ⟨Nat.toDigits_ne_nil, fun _ hc => isSpace_of_isDigit (isDigit_of_mem_toDigits hc)⟩

theorem isWord_key (r : MemRow) : IsWord (r.key ++ [':']) := by
  constructor
  · exact List.append_ne_nil_of_right_ne_nil _ (List.cons_ne_nil _ _)
  · intro c hc
    rcases List.mem_append.mp hc with hkey | hcolon
    · exact (r.valid c hkey).right
    · rw [List.mem_singleton.mp hcolon]
      rfl

theorem fields_amount (r : MemRow) :
    exists rest, Awk.fields (Nat.toDigits 10 r.kb.toNat ++ r.unitText) =
      Nat.toDigits 10 r.kb.toNat :: rest := by
  unfold MemRow.unitText
  cases r.unit with
  | true => exact ⟨_, Awk.fields_cons (isWord_toDigits _) Nat.one_pos "kB".toList⟩
  | false =>
      refine ⟨[], ?_⟩
      rw [if_neg Bool.false_ne_true, List.append_nil]
      exact Awk.fields_word (isWord_toDigits _)

theorem fields_text (r : MemRow) :
    exists rest, Awk.fields r.text =
      (r.key ++ [':']) :: Nat.toDigits 10 r.kb.toNat :: rest := by
  rcases fields_amount r with ⟨rest, hrest⟩
  refine ⟨rest, ?_⟩
  have htext : r.text = (r.key ++ [':']) ++
      (blanks r.gap ++ (Nat.toDigits 10 r.kb.toNat ++ r.unitText)) := by
    unfold MemRow.text column
    simp only [List.append_assoc, List.singleton_append]
  rw [htext, Awk.fields_cons (isWord_key r) r.spaced, hrest]

def rowInput (r : MemRow) : Awk.Value :=
  .input (Nat.toDigits 10 r.kb.toNat)

theorem assign_text (r : MemRow) {name key : String} (hname : name.toList = key.toList ++ [':'])
    (var : Awk.Value) :
    MemRef.assign r.text name var = if r.key = key.toList then rowInput r else var := by
  rcases fields_text r with ⟨rest, hfields⟩
  have hfirst : (Awk.field r.text 1).text = r.key ++ [':'] := by
    simp [Awk.field, hfields, Awk.Value.text]
  have hsecond : Awk.field r.text 2 = rowInput r := by
    simp [Awk.field, hfields, rowInput]
  unfold MemRef.assign
  rw [hfirst, hsecond, hname]
  simp only [List.append_cancel_right_eq]

/-!
## The variables at the end
-/

section Variables

variable {content : Str} (info : MemInfo content)

def finalValue (key : String) : Awk.Value :=
  ((info.find key).map rowInput).getD .uninitialized

theorem foldl_rules {get : MemRef -> Awk.Value} {name key : String}
    (hget : forall vars record, get (vars.rules record) = MemRef.assign record name (get vars))
    (hname : name.toList = key.toList ++ [':']) (hstart : get {} = .uninitialized) :
    get ((lines content).foldl MemRef.rules {}) = finalValue info key := by
  have hstep : forall (vars : MemRef) (r : MemRow), get (vars.rules r.text) =
      if r.key = key.toList then rowInput r else get vars := by
    intro vars r
    rw [hget, assign_text r hname]
  rw [info.lines_eq, List.foldl_map, foldl_find?_key hstep info.distinct, hstart]
  rfl

/-- The rows of the keys that the program looks at carry the unit. -/
def CarriesUnits : Prop :=
  forall r, r ∈ info.rows ->
    r.key ∈ ["MemTotal".toList, "MemFree".toList, "Cached".toList, "Buffers".toList] ->
      r.unit = true

instance : Decidable (CarriesUnits info) :=
  inferInstanceAs (Decidable (forall r, r ∈ info.rows -> r.key ∈ _ -> r.unit = true))

theorem number_finalValue {key : String}
    (hunit : forall r, info.find key = some r -> r.unit = true) :
    (finalValue info key).number = info.amount key := by
  unfold finalValue MemInfo.amount MemInfo.kb
  cases hfind : info.find key with
  | none => rfl
  | some r =>
      show strtod (Nat.toDigits 10 r.kb.toNat) = (r.amount.toNat : Rat)
      rw [strtod_toDigits, MemRow.amount, if_pos (hunit r hfind)]

theorem isPositive_finalValue {key : String}
    (hunit : forall r, info.find key = some r -> r.unit = true) (hpos : 0 < info.amount key) :
    (finalValue info key).isPositive = true := by
  have hnumber := number_finalValue info hunit
  unfold finalValue at hnumber ⊢
  cases hfind : info.find key with
  | none =>
      rw [hfind] at hnumber
      rw [← hnumber] at hpos
      exact absurd hpos (lt_irrefl 0)
  | some r =>
      rw [hfind] at hnumber
      rw [← hnumber] at hpos
      show (if isNumber (Nat.toDigits 10 r.kb.toNat) then
        decide (0 < strtod (Nat.toDigits 10 r.kb.toNat)) else _) = true
      rw [isNumber_toDigits, if_pos rfl]
      exact decide_eq_true hpos

theorem foldl_rules_eq :
    (lines content).foldl MemRef.rules {} =
      { total := finalValue info "MemTotal", free := finalValue info "MemFree",
        cached := finalValue info "Cached", buffers := finalValue info "Buffers" } := by
  have htotal : ((lines content).foldl MemRef.rules {}).total = finalValue info "MemTotal" :=
    foldl_rules info (fun _ _ => rfl) rfl rfl
  have hfree : ((lines content).foldl MemRef.rules {}).free = finalValue info "MemFree" :=
    foldl_rules info (fun _ _ => rfl) rfl rfl
  have hcached : ((lines content).foldl MemRef.rules {}).cached = finalValue info "Cached" :=
    foldl_rules info (fun _ _ => rfl) rfl rfl
  have hbuffers : ((lines content).foldl MemRef.rules {}).buffers = finalValue info "Buffers" :=
    foldl_rules info (fun _ _ => rfl) rfl rfl
  rw [← htotal, ← hfree, ← hcached, ← hbuffers]

/-- On rows with units the reference is the share that the monitor publishes. -/
theorem memRef_eq (htotal : 0 < info.kb "MemTotal") (hunits : CarriesUnits info) :
    memRef content = .percent info.usedPct := by
  have hunit : forall key : String,
      key.toList ∈ ["MemTotal".toList, "MemFree".toList, "Cached".toList, "Buffers".toList] ->
        forall r, info.find key = some r -> r.unit = true := by
    intro key hkey r hfind
    rcases mem_of_find?_key hfind with ⟨hr, heq⟩
    rw [← heq] at hkey
    exact hunits r hr hkey
  have hpos : 0 < info.amount "MemTotal" := Nat.cast_pos.mpr (UInt64.lt_iff_toNat_lt.mp htotal)
  have hpositive := isPositive_finalValue info (hunit "MemTotal" (by decide)) hpos
  have hne : info.amount "MemTotal" ≠ 0 := ne_of_gt hpos
  have hnumbers : forall key : String,
      key.toList ∈ ["MemTotal".toList, "MemFree".toList, "Cached".toList, "Buffers".toList] ->
        (finalValue info key).number = info.amount key :=
    fun key hkey => number_finalValue info (hunit key hkey)
  unfold memRef MemRef.report MemInfo.usedPct
  rw [foldl_rules_eq info]
  dsimp only
  rw [if_pos hpositive, hnumbers "MemTotal" (by decide), hnumbers "MemFree" (by decide),
    hnumbers "Cached" (by decide), hnumbers "Buffers" (by decide), if_neg hne, if_neg hne,
    mul_comm (100 : Rat)]

end Variables

/-!
## The monitor and its reference
-/

/-- The monitor reads any such content without an exception, and what it publishes is
the share and the swap of the rows, in any order and with any of them missing; where
the memory is not empty and the rows have units, the reference is the same share. -/
theorem collect_matches_reference {content : Str} (info : MemInfo content)
    (hswap : info.kb "SwapFree" ≤ info.kb "SwapTotal") :
    exists usage, MemMonitor.collect content = .ok usage ∧
      (usage.usedPct =
        if info.amount "MemTotal" = 0 then 0
        else
          100 * (info.amount "MemTotal" - info.amount "MemFree" - info.amount "Cached" -
            info.amount "Buffers") / info.amount "MemTotal") ∧
      (0 < info.kb "MemTotal" -> CarriesUnits info -> memRef content = .percent usage.usedPct) ∧
      usage.swapUsedGb = (info.amount "SwapTotal" - info.amount "SwapFree") / 2 ^ 20 := by
  refine ⟨_, info.collect_eq, info.usage_usedPct, ?_, info.usage_swapUsedGb hswap⟩
  intro htotal hunits
  rw [info.usage_usedPct]
  exact memRef_eq info htotal hunits

def sampleText : Str :=
  "SwapCached: 7 kB\nCached:  3000 kB\nHugePages_Total:   5\nMemTotal: 16000 kB\n".toList ++
    "SwapTotal: 9 kB".toList

def sampleRow (key : Str) (gap : Nat) (kb : UInt64) (unit : Bool)
    (hkey : key.all (fun c => decide (c ≠ ':') && !isSpace c) = true) (hgap : 0 < gap) :
    MemRow where
  key := key
  gap := gap
  kb := kb
  unit := unit
  valid := by
    intro c hc
    simpa using List.all_eq_true.mp hkey c hc
  spaced := hgap

def sampleInfo : MemInfo sampleText where
  rows :=
    [sampleRow "SwapCached".toList 1 7 true (by decide) (by decide),
      sampleRow "Cached".toList 2 3000 true (by decide) (by decide),
      sampleRow "HugePages_Total".toList 3 5 false (by decide) (by decide),
      sampleRow "MemTotal".toList 1 16000 true (by decide) (by decide),
      sampleRow "SwapTotal".toList 1 9 true (by decide) (by decide)]
  lines_eq := by decide +kernel
  distinct := by decide

theorem sample_matches_reference :
    exists usage, MemMonitor.collect sampleText = .ok usage ∧
      memRef sampleText = .percent usage.usedPct ∧ usage.swapUsedGb = 9 / 2 ^ 20 := by
  rcases collect_matches_reference sampleInfo (by decide) with
    ⟨usage, hcollect, _, hreference, hswap⟩
  have hamounts : sampleInfo.amount "SwapTotal" - sampleInfo.amount "SwapFree" = 9 := by
    decide +kernel
  rw [hamounts] at hswap
  exact ⟨usage, hcollect, hreference (by decide) (by decide), hswap⟩

end EndToEnd
end PerfMonitor
