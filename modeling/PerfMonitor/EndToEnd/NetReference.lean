import Mathlib.Algebra.BigOperators.Ring.Finset
import Mathlib.Algebra.BigOperators.Ring.List
import Mathlib.Algebra.Order.Field.Rat
import Mathlib.Tactic.LinearCombination
import PerfMonitor.EndToEnd.Rates
import PerfMonitor.Foundation.Awk
import PerfMonitor.Foundation.Joining
import PerfMonitor.Foundation.Rounding

/-!
# The reference of the network throughput

`net_raw` of `scripts/benchmark_network_metric_accuracy.sh` adds up the third and the
eleventh field of the lines of `/proc/net/dev`, where colons and blanks separate the
fields.  On a line that begins with a blank the first field is empty, and these are the
received and the sent bytes; a line whose name begins at once has its fields one
position earlier, so that packets are added instead.  The numbers of awk are doubles, and
the rate is printed with four places.
-/

namespace PerfMonitor
namespace EndToEnd

open Foundation Worker Manager

/-- The separators of `-F'[: ]+'`. -/
def isSeparator (c : Char) : Bool :=
  c == ':' || c == ' '

structure NetRaws where
  rx : Rat := 0
  tx : Rat := 0
deriving DecidableEq, Repr

def NetRaws.rule (vars : NetRaws) (record : Str) : NetRaws :=
  if (Awk.runField isSeparator record 2).text ≠ "lo".toList then
    { rx := double (vars.rx + double (Awk.runField isSeparator record 3).number)
      tx := double (vars.tx + double (Awk.runField isSeparator record 11).number) }
  else vars

/-- The two numbers that the program prints with `%.0f`. -/
def netRaw (content : Str) : NetRaws :=
  let vars := ((lines content).drop 2).foldl NetRaws.rule {}
  { rx := fixedPoint 0 vars.rx, tx := fixedPoint 0 vars.tx }

/-- `printf "%.4f", (b-a)*8.0/1024/1024`. -/
def referenceMbps (a b : Rat) : Rat :=
  fixedPoint 4 (double (double (double (double (double b - double a) * 8) / 1024) / 1024))

def exactMbps (a b : Rat) : Rat :=
  (b - a) * 8 / 1024 / 1024

/-- Between sums that doubles keep, only `printf` rounds. -/
theorem referenceMbps_sub_le {a b : Nat} (ha : a ≤ 2 ^ 53) (hb : b ≤ 2 ^ 53) :
    |referenceMbps a b - exactMbps a b| ≤ 1 / 20000 := by
  have hdifference : |(b : Int) - a| ≤ 2 ^ 53 := by
    rw [abs_le]
    omega
  have hscaled : forall e : Int, -1074 ≤ e ->
      double (((b : Int) - a : Int) * 2 ^ e) = ((b : Int) - a : Int) * 2 ^ e :=
    fun e he => double_exact hdifference he
  have hcast : (b : Rat) - a = (((b : Int) - a : Int) : Rat) := by
    push_cast
    rfl
  have hzero := hscaled 0 (by decide)
  have hthree := hscaled 3 (by decide)
  have hseven := hscaled (-7) (by decide)
  have hseventeen := hscaled (-17) (by decide)
  have hpowers : (2 : Rat) ^ (0 : Int) = 1 ∧ (2 : Rat) ^ (3 : Int) = 8 ∧
      (2 : Rat) ^ (-7 : Int) = 8 / 1024 ∧ (2 : Rat) ^ (-17 : Int) = 8 / 1024 / 1024 := by
    refine ⟨?_, ?_, ?_, ?_⟩ <;> norm_num
  rcases hpowers with ⟨h0, h3, h7, h17⟩
  rw [h0, mul_one] at hzero
  rw [h3] at hthree
  rw [h7, ← mul_div_assoc] at hseven
  rw [h17, ← mul_div_assoc, ← mul_div_assoc] at hseventeen
  have hexact : referenceMbps a b = fixedPoint 4 (exactMbps a b) := by
    unfold referenceMbps exactMbps
    rw [double_natCast ha, double_natCast hb, hcast, hzero, hthree, hseven, hseventeen]
  rw [hexact]
  exact (abs_fixedPoint_sub_le 4 _).trans (by norm_num)

/-!
## The fields of a row
-/

theorem isSeparator_blanks (n : Nat) : forall c, c ∈ blanks n -> isSeparator c = true := by
  intro c hc
  rw [List.eq_of_mem_replicate hc]
  rfl

theorem isSeparator_toDigits (n : Nat) :
    forall c, c ∈ Nat.toDigits 10 n -> isSeparator c = false := by
  intro c hc
  have hdigit := isDigit_of_mem_toDigits hc
  have hcolon : c ≠ ':' := ne_of_kind hdigit rfl
  have hblank : c ≠ ' ' := ne_of_kind hdigit rfl
  simp [isSeparator, hcolon, hblank]

theorem stopsAt_isSeparator_toDigits (n : Nat) (rest : List Char) :
    StopsAt isSeparator (Nat.toDigits 10 n ++ rest) := by
  rcases exists_toDigits_cons n with ⟨d, ds, hd, hdigit⟩
  rw [hd]
  apply stopsAt_cons
  apply isSeparator_toDigits n
  rw [hd]
  exact List.mem_cons_self

theorem isSeparator_name (r : NetRow) : forall c, c ∈ r.name -> isSeparator c = false := by
  intro c hc
  rcases r.valid c hc with ⟨hcolon, hspace⟩
  have hblank : c ≠ ' ' := by
    intro heq
    rw [heq] at hspace
    exact absurd hspace (by decide)
  simp [isSeparator, hcolon, hblank]

theorem stopsAt_isSeparator_name (r : NetRow) (rest : List Char) :
    StopsAt isSeparator (r.name ++ rest) := by
  cases hname : r.name with
  | nil => exact absurd hname r.named
  | cons c more =>
      apply stopsAt_cons
      apply isSeparator_name r
      rw [hname]
      exact List.mem_cons_self

theorem splitRuns_columns (n : Nat) {cols : List (Nat × UInt64)}
    (hspaced : forall col, col ∈ cols -> 0 < col.1) (trail : Nat) :
    exists rest, Awk.splitRuns isSeparator
        (Nat.toDigits 10 n ++ (columns cols ++ blanks trail)) =
      Nat.toDigits 10 n :: (cols.map (fun col => Nat.toDigits 10 col.2.toNat) ++ rest) := by
  induction cols generalizing n with
  | nil =>
      rw [show columns [] = [] from rfl, List.nil_append]
      cases trail with
      | zero =>
          refine ⟨[], ?_⟩
          rw [show blanks 0 = [] from rfl, List.append_nil,
            Awk.splitRuns_word (isSeparator_toDigits n)]
          rfl
      | succ trail =>
          have hsplit := Awk.splitRuns_cons (isSeparator_toDigits n) (List.cons_ne_nil _ _)
            (isSeparator_blanks (trail + 1)) (stopsAt_nil isSeparator)
          rw [List.append_nil] at hsplit
          exact ⟨[[]], hsplit⟩
  | cons col cols ih =>
      rcases ih col.2.toNat (fun c hc => hspaced c (List.mem_cons_of_mem col hc)) with ⟨rest, hrest⟩
      refine ⟨rest, ?_⟩
      have hgap : blanks col.1 ≠ [] := by
        intro heq
        have hlen := congrArg List.length heq
        rw [blanks, List.length_replicate] at hlen
        exact Nat.ne_of_gt (hspaced col List.mem_cons_self) hlen
      have htext : columns (col :: cols) ++ blanks trail =
          blanks col.1 ++ (Nat.toDigits 10 col.2.toNat ++ (columns cols ++ blanks trail)) := by
        simp only [columns, column, List.flatMap_cons, List.append_assoc]
      rw [htext, Awk.splitRuns_cons (isSeparator_toDigits n) hgap (isSeparator_blanks _)
        (stopsAt_isSeparator_toDigits _ _), hrest]
      rfl

def front (r : NetRow) : List (List Char) :=
  if r.indent = 0 then [] else [[]]

theorem runFields_text (r : NetRow) :
    exists rest, Awk.runFields isSeparator r.text =
      front r ++ r.name :: (List.ofFn (fun i => Nat.toDigits 10 (r.counters i).toNat) ++ rest) := by
  rcases splitRuns_columns (r.counters 0).toNat r.spaced_tail r.trail with
    ⟨rest, hrest⟩
  refine ⟨rest, ?_⟩
  have hcols : r.cols = (r.gap 0, r.counters 0) :: r.cols.tail := by
    rw [NetRow.cols, List.ofFn_succ]
    rfl
  have hnumbers : List.ofFn (fun i => Nat.toDigits 10 (r.counters i).toNat) =
      Nat.toDigits 10 (r.counters 0).toNat ::
        r.cols.tail.map (fun col => Nat.toDigits 10 col.2.toNat) := by
    have htails : r.cols.tail =
        List.ofFn (fun i => (r.gap (Fin.succ i), r.counters (Fin.succ i))) := by
      rw [NetRow.cols, List.ofFn_succ, List.tail_cons]
    rw [htails, List.map_ofFn]
    exact List.ofFn_succ
  have htail : columns r.cols ++ blanks r.trail =
      blanks (r.gap 0) ++ (Nat.toDigits 10 (r.counters 0).toNat ++
        (columns r.cols.tail ++ blanks r.trail)) := by
    rw [hcols]
    simp only [columns, column, List.flatMap_cons, List.append_assoc, List.tail_cons]
  have hcolon : forall c, c ∈ ':' :: blanks (r.gap 0) -> isSeparator c = true := by
    intro c hc
    rcases List.mem_cons.mp hc with heq | hblank
    · rw [heq]
      rfl
    · exact isSeparator_blanks _ c hblank
  have hname : Awk.splitRuns isSeparator (r.name ++ ':' :: (columns r.cols ++ blanks r.trail)) =
      r.name :: (List.ofFn (fun i => Nat.toDigits 10 (r.counters i).toNat) ++ rest) := by
    rw [htail, ← List.cons_append, Awk.splitRuns_cons (isSeparator_name r) (List.cons_ne_nil _ _)
      hcolon (stopsAt_isSeparator_toDigits _ _), hrest, hnumbers]
    rfl
  have hfull : Awk.runFields isSeparator r.text = Awk.splitRuns isSeparator r.text := by
    unfold Awk.runFields
    rw [if_neg]
    rw [Bool.not_eq_true, List.isEmpty_eq_false_iff]
    unfold NetRow.text
    simp
  unfold front
  rw [hfull, NetRow.text]
  by_cases hindent : r.indent = 0
  · rw [if_pos hindent, hindent, show blanks 0 = [] from rfl, List.nil_append, hname]
    rfl
  · have hne : blanks r.indent ≠ [] := by
      intro heq
      have hlen := congrArg List.length heq
      rw [blanks, List.length_replicate] at hlen
      exact hindent hlen
    rw [if_neg hindent, Awk.splitRuns_run hne (isSeparator_blanks _)
      (stopsAt_isSeparator_name r _), hname]
    rfl

def nextColumn (i : Fin 16) : Fin 16 :=
  ⟨(i.val + 1) % 16, Nat.mod_lt (i.val + 1) (by decide)⟩

/-- The column, counted from zero, in which the rule finds the bytes that are in column
`i`. -/
def readColumn (r : NetRow) (i : Fin 16) : Fin 16 :=
  if r.indent = 0 then nextColumn i else i

theorem runField_text (r : NetRow) {i : Fin 16} (hi : i.val < 15) :
    Awk.runField isSeparator r.text (i.val + 3) =
      .input (Nat.toDigits 10 (r.counters (readColumn r i)).toNat) := by
  rcases runFields_text r with ⟨rest, hfields⟩
  have hget : forall j : Fin 16,
      (List.ofFn (fun k => Nat.toDigits 10 (r.counters k).toNat) ++ rest)[j.val]? =
        some (Nat.toDigits 10 (r.counters j).toNat) := by
    intro j
    rw [List.getElem?_append_left (by rw [List.length_ofFn]; exact j.isLt), List.getElem?_ofFn,
      dif_pos j.isLt]
  have hfield : (Awk.runFields isSeparator r.text)[i.val + 2]? =
      some (Nat.toDigits 10 (r.counters (readColumn r i)).toNat) := by
    rw [hfields]
    unfold front readColumn
    by_cases hindent : r.indent = 0
    · have hnext : (nextColumn i).val = i.val + 1 := Nat.mod_eq_of_lt (Nat.succ_lt_succ hi)
      rw [if_pos hindent, if_pos hindent, List.nil_append, List.getElem?_cons_succ, ← hnext, hget]
    · rw [if_neg hindent, if_neg hindent]
      exact hget i
  exact Awk.runField_of_runFields hfield

/-- What the rule adds for a row in place of the counter in column `i`. -/
def counted (r : NetRow) (i : Fin 16) : Nat :=
  if r.indent = 0 then (r.counters (nextColumn i)).toNat
  else if r.name = "lo".toList then 0
  else (r.counters i).toNat

/-- What the program adds up in place of the counters in column `i`. -/
def netTotal (s : NetSample) (i : Fin 16) : Nat :=
  (s.rows.map (fun r => counted r i)).sum

/-- The second field is the name, or the first number of a line that begins with it. -/
theorem runField_two (r : NetRow) :
    (Awk.runField isSeparator r.text 2).text ≠ "lo".toList <->
      r.indent = 0 ∨ r.name ≠ "lo".toList := by
  rcases runFields_text r with ⟨rest, hfields⟩
  unfold Awk.runField front at *
  by_cases hindent : r.indent = 0
  · rw [if_pos hindent, List.ofFn_succ] at hfields
    rw [hfields]
    refine iff_of_true ?_ (Or.inl hindent)
    intro htext
    have hdigits : Nat.toDigits 10 (r.counters 0).toNat = "lo".toList := htext
    have hdigit := isDigit_of_mem_toDigits (n := (r.counters 0).toNat) (c := 'l')
      (by rw [hdigits]; decide)
    exact absurd hdigit (by decide)
  · rw [if_neg hindent] at hfields
    rw [hfields]
    exact ⟨Or.inr, fun h => h.resolve_left hindent⟩

theorem rule_text {rx tx : Nat} (r : NetRow) (hrx : rx + counted r 0 ≤ 2 ^ 53)
    (htx : tx + counted r 8 ≤ 2 ^ 53) :
    ({ rx := (rx : Rat), tx := (tx : Rat) } : NetRaws).rule r.text =
      { rx := ((rx + counted r 0 : Nat) : Rat), tx := ((tx + counted r 8 : Nat) : Rat) } := by
  have hnumber : forall i : Fin 16, i.val < 15 ->
      (Awk.runField isSeparator r.text (i.val + 3)).number =
        ((r.counters (readColumn r i)).toNat : Rat) := by
    intro i hi
    rw [runField_text r hi]
    exact strtod_toDigits _
  unfold NetRaws.rule
  by_cases hcounts : r.indent = 0 ∨ r.name ≠ "lo".toList
  · have hvalue : forall i, counted r i = (r.counters (readColumn r i)).toNat := by
      intro i
      unfold counted readColumn
      by_cases hindent : r.indent = 0
      · rw [if_pos hindent, if_pos hindent]
      · rw [if_neg hindent, if_neg hindent, if_neg (hcounts.resolve_left hindent)]
    rw [← double_add_natCast hrx, ← double_add_natCast htx, if_pos ((runField_two r).mpr hcounts),
      hvalue, hvalue, ← hnumber 0 (by decide), ← hnumber 8 (by decide)]
    rfl
  · have hnone : forall i, counted r i = 0 := by
      intro i
      rcases not_or.mp hcounts with ⟨hindent, hname⟩
      unfold counted
      rw [if_neg hindent, if_pos (Classical.not_not.mp hname)]
    rw [if_neg (fun h => hcounts ((runField_two r).mp h)), hnone, hnone, Nat.add_zero, Nat.add_zero]

theorem lines_text (s : NetSample) :
    lines s.text = s.header :: s.subheader :: s.rows.map NetRow.text := by
  apply lines_flatMap
  simp only [List.mem_cons, List.mem_map]
  rintro l (heq | heq | ⟨r, _, heq⟩)
  · rw [heq]
    exact s.headerLine
  · rw [heq]
    exact s.subheaderLine
  · rw [← heq]
    exact r.newline_notMem_text

theorem foldl_rule_text (rows : List NetRow) {rx tx : Nat}
    (hrx : rx + (rows.map (fun r => counted r 0)).sum ≤ 2 ^ 53)
    (htx : tx + (rows.map (fun r => counted r 8)).sum ≤ 2 ^ 53) :
    (rows.map NetRow.text).foldl NetRaws.rule { rx := (rx : Rat), tx := (tx : Rat) } =
      { rx := ((rx + (rows.map (fun r => counted r 0)).sum : Nat) : Rat)
        tx := ((tx + (rows.map (fun r => counted r 8)).sum : Nat) : Rat) } := by
  induction rows generalizing rx tx with
  | nil => rfl
  | cons r rest ih =>
      simp only [List.map_cons, List.sum_cons, ← Nat.add_assoc] at hrx htx ⊢
      rw [List.foldl_cons, rule_text r (Nat.le_trans (Nat.le_add_right _ _) hrx)
        (Nat.le_trans (Nat.le_add_right _ _) htx), ih hrx htx]

structure SumsFit (s : NetSample) : Prop where
  rx : netTotal s 0 ≤ 2 ^ 53
  tx : netTotal s 8 ≤ 2 ^ 53

theorem netRaw_text {s : NetSample} (hfits : SumsFit s) :
    netRaw s.text = { rx := (netTotal s 0 : Rat), tx := (netTotal s 8 : Rat) } := by
  have hfold : (s.rows.map NetRow.text).foldl NetRaws.rule {} =
      { rx := (netTotal s 0 : Rat), tx := (netTotal s 8 : Rat) } := by
    refine (@foldl_rule_text s.rows 0 0 ?_ ?_).trans ?_
    · rw [Nat.zero_add]
      exact hfits.rx
    · rw [Nat.zero_add]
      exact hfits.tx
    · rw [Nat.zero_add, Nat.zero_add]
      rfl
  have hprinted : forall n : Nat, fixedPoint 0 (n : Rat) = n :=
    fun n => by exact_mod_cast fixedPoint_intCast 0 n
  unfold netRaw
  rw [lines_text s, show (s.header :: s.subheader :: s.rows.map NetRow.text).drop 2 =
    s.rows.map NetRow.text from rfl, hfold]
  simp only [hprinted]

/-!
## What the monitor publishes
-/

/-- What the monitor looks at in place of the counter in column `i`. -/
def monitored (r : NetRow) (i : Fin 16) : Rat :=
  if r.name = "lo".toList then 0 else ((r.counters i).toNat : Rat)

section Published

variable {m : NetMonitor} {prev cur : NetSample}

theorem interfaces_perm (hm : m.Keeps prev) (cur : NetSample) :
    (m.collect cur.text).interfaces.Perm
      ((paired NetRow.name prev.rows cur.rows).filterMap (fun q =>
        if q.2.name = "lo".toList then none
        else some (NetMonitor.netStats q.2.name q.1.raw q.2.raw))) := by
  have hentries : (m.collect cur.text).prevNetMap.entries.Perm
      (cur.rows.map (fun r => Sigma.mk r.name r.raw)) :=
    Table.entries_perm_rows cur.distinct (m.collect_keeps cur)
  have hpublished := hentries.filterMap (fun e => NetMonitor.publish m.prevNetMap e.1 e.2)
  rw [List.filterMap_map] at hpublished
  refine hpublished.trans (List.Perm.of_eq ?_)
  rw [← filterMap_partner NetRow.name (fun p c => if c.name = "lo".toList then none
    else some (NetMonitor.netStats c.name p.raw c.raw))]
  apply List.filterMap_congr
  intro c _
  have hprev : m.prevNetMap.lookup c.name =
      (partner NetRow.name prev.rows c).map NetRow.raw := hm c.name
  show NetMonitor.publish m.prevNetMap c.name c.raw = _
  unfold NetMonitor.publish
  rw [hprev]
  cases partner NetRow.name prev.rows c with
  | none =>
      rw [Option.map_none, Option.map_none, ite_self]
      rfl
  | some p => rfl

variable (rises : forall p c, p ∈ prev.rows -> c ∈ cur.rows -> p.name = c.name ->
  forall i, p.counters i ≤ c.counters i)

include rises

theorem mbps_eq {p c : NetRow} (hpair : (p, c) ∈ paired NetRow.name prev.rows cur.rows)
    (i : Fin 16) (hlo : c.name ≠ "lo".toList) :
    NetMonitor.mbps (c.counters i) (p.counters i) =
      exactMbps (monitored p i) (monitored c i) := by
  rcases mem_paired.mp hpair with ⟨hc, hpartner⟩
  rcases mem_of_partner hpartner with ⟨hp, hname⟩
  unfold NetMonitor.mbps exactMbps monitored
  rw [toNat_sub_cast (rises p c hp hc hname i), if_neg hlo, if_neg (fun h => hlo (hname ▸ h))]
  ring

theorem sum_interfaces (hm : m.Keeps prev) {field : NetStats -> Rat} {i : Fin 16}
    (hfield : forall name (p c : NetRow), field (NetMonitor.netStats name p.raw c.raw) =
      NetMonitor.mbps (c.counters i) (p.counters i)) :
    ((m.collect cur.text).interfaces.map field).sum =
      ((paired NetRow.name prev.rows cur.rows).map (fun q =>
        exactMbps (monitored q.1 i) (monitored q.2 i))).sum := by
  rw [((interfaces_perm hm cur).map field).sum_eq, sum_filterMap]
  congr 1
  apply List.map_congr_left
  rintro ⟨p, c⟩ hpair
  by_cases hlo : c.name = "lo".toList
  · have hname := (mem_of_partner (mem_paired.mp hpair).right).right
    unfold exactMbps monitored
    rw [if_pos hlo, if_pos hlo, if_pos (hname.trans hlo)]
    simp
  · rw [if_neg hlo, Option.map_some, Option.getD_some, hfield]
    exact mbps_eq rises hpair i hlo

end Published

/-!
## The reference and the stored rates
-/

def misread (s : NetSample) (i : Fin 16) : Rat :=
  (s.rows.map (fun r => (counted r i : Rat) - monitored r i)).sum

def unmatched (s other : NetSample) (i : Fin 16) : Rat :=
  ((unpaired NetRow.name s.rows other.rows).map (fun r => monitored r i)).sum

def netError (prev cur : NetSample) (i : Fin 16) : Rat :=
  exactMbps (misread prev i + unmatched prev cur i) (misread cur i + unmatched cur prev i)

theorem netTotal_eq (s : NetSample) (i : Fin 16) :
    (netTotal s i : Rat) = (s.rows.map (fun r => monitored r i)).sum + misread s i := by
  unfold netTotal misread
  rw [← List.sum_map_add, Nat.cast_list_sum, List.map_map]
  simp only [add_sub_cancel]
  rfl

theorem sum_exactMbps (pairs : List (NetRow × NetRow)) (i : Fin 16) :
    (pairs.map (fun q => exactMbps (monitored q.1 i) (monitored q.2 i))).sum =
      (pairs.map (fun q => monitored q.2 i - monitored q.1 i)).sum * (8 / 1024 / 1024) := by
  rw [← List.sum_map_mul_right]
  congr 1
  apply List.map_congr_left
  intro q _
  unfold exactMbps
  ring

theorem exactMbps_netTotal (prev cur : NetSample) (i : Fin 16) :
    exactMbps (netTotal prev i) (netTotal cur i) =
      ((paired NetRow.name prev.rows cur.rows).map (fun q =>
        exactMbps (monitored q.1 i) (monitored q.2 i))).sum + netError prev cur i := by
  have hdifference := sum_sub_sum_eq (fun r => monitored r i) prev.distinct cur.distinct
  rw [sum_exactMbps, netTotal_eq, netTotal_eq]
  unfold netError exactMbps unmatched
  linear_combination (8 / 1024 / 1024 : Rat) * hdifference

def Indented (s : NetSample) : Prop :=
  forall r, r ∈ s.rows -> r.indent ≠ 0

theorem misread_of_indented {s : NetSample} (h : Indented s) (i : Fin 16) : misread s i = 0 := by
  unfold misread
  apply List.sum_eq_zero
  intro x hx
  rcases List.mem_map.mp hx with ⟨r, hr, heq⟩
  rw [← heq]
  unfold counted monitored
  rw [if_neg (h r hr), Nat.cast_ite, Nat.cast_zero, sub_self]

theorem netError_eq_zero {prev cur : NetSample} (hprev : Indented prev) (hcur : Indented cur)
    (hsame : forall name, name ∈ prev.rows.map NetRow.name <-> name ∈ cur.rows.map NetRow.name)
    (i : Fin 16) : netError prev cur i = 0 := by
  unfold netError unmatched
  rw [misread_of_indented hprev, misread_of_indented hcur,
    unpaired_eq_nil (fun name => (hsame name).mp), unpaired_eq_nil (fun name => (hsame name).mpr)]
  unfold exactMbps
  simp

/-- After any number of earlier rounds, and where doubles keep the sums of the script: its
references over the last two samples are, up to the fourth place, the rates that the manager
stores for them and an error, which stands for the packets that are added in place of bytes
and the interfaces that came or went.  There is none where every line is indented and the
interfaces are the same. -/
theorem netReference_near (first : NetSample) (middle : List NetSample) (last : NetSample)
    (hrises : forall p c, p ∈ (NetMonitor.lastSample first middle).rows -> c ∈ last.rows ->
      p.name = c.name -> forall i, p.counters i ≤ c.counters i)
    (hfits : SumsFit (NetMonitor.lastSample first middle) ∧ SumsFit last)
    (mgr : HostManager) (now : Int) (pusher : MonitorPusher) (inp : PushInput)
    (hinterfaces : inp.metrics.interfaces =
      (runFrom NetMonitor.collectSample (({} : NetMonitor).init first.text)
        (middle ++ [last])).interfaces) :
    let prev := NetMonitor.lastSample first middle
    let stored := GrpcServer.storedSnapshot mgr now (pusher.report inp)
    (|referenceMbps (netRaw prev.text).rx (netRaw last.text).rx -
        (stored.netRxMbps + netError prev last 0)| ≤ 1 / 20000 ∧
      |referenceMbps (netRaw prev.text).tx (netRaw last.text).tx -
        (stored.netTxMbps + netError prev last 8)| ≤ 1 / 20000) ∧
    (Indented prev -> Indented last ->
      (forall name, name ∈ prev.rows.map NetRow.name <-> name ∈ last.rows.map NetRow.name) ->
        netError prev last 0 = 0 ∧ netError prev last 8 = 0) := by
  intro prev stored
  have hkeeps := NetMonitor.run_keeps first middle
  rcases stored_report mgr now pusher inp with ⟨hrx, htx, _⟩
  rw [hinterfaces, runFrom_concat] at hrx htx
  refine ⟨⟨?_, ?_⟩, ?_⟩
  · have hstored : stored.netRxMbps + netError prev last 0 =
        exactMbps (netTotal prev 0) (netTotal last 0) := by
      rw [exactMbps_netTotal]
      exact congrArg (fun x => x + netError prev last 0)
        (hrx.trans (sum_interfaces hrises hkeeps (fun _ _ _ => rfl)))
    rw [netRaw_text hfits.left, netRaw_text hfits.right, hstored]
    exact referenceMbps_sub_le hfits.left.rx hfits.right.rx
  · have hstored : stored.netTxMbps + netError prev last 8 =
        exactMbps (netTotal prev 8) (netTotal last 8) := by
      rw [exactMbps_netTotal]
      exact congrArg (fun x => x + netError prev last 8)
        (htx.trans (sum_interfaces hrises hkeeps (fun _ _ _ => rfl)))
    rw [netRaw_text hfits.left, netRaw_text hfits.right, hstored]
    exact referenceMbps_sub_le hfits.left.tx hfits.right.tx
  · intro hprev hcur hsame
    exact ⟨netError_eq_zero hprev hcur hsame 0, netError_eq_zero hprev hcur hsame 8⟩

def dockerRow (packets : UInt64) : NetRow :=
  { NetMonitor.etherRow packets with
    name := "docker0".toList
    counters := fun i => if i.val = 0 ∨ i.val = 8 then 1000 * packets else packets
    indent := 0
    named := by decide
    valid := by
      intro c hc
      have hall : "docker0".toList.all (fun c => c != ':' && !isSpace c) = true := rfl
      have hboth := List.all_eq_true.mp hall c hc
      rw [Bool.and_eq_true, bne_iff_ne, Bool.not_eq_true'] at hboth
      exact hboth }

def dockerSample (packets : UInt64) : NetSample :=
  { NetMonitor.etherSample packets with
    rows := [NetMonitor.etherRow packets, dockerRow packets]
    distinct := by
      show ["eth0".toList, "docker0".toList].Nodup
      decide }

theorem rises_docker : forall p c, p ∈ (dockerSample 1).rows -> c ∈ (dockerSample 3).rows ->
    p.name = c.name -> forall i, p.counters i ≤ c.counters i := by
  simp only [dockerSample, List.mem_cons, List.not_mem_nil, or_false]
  rintro p c (hp | hp) (hc | hc) hname i
  · rw [hp, hc]
    show (1 : UInt64) ≤ 3
    decide
  · rw [hp, hc] at hname
    exact absurd hname (by decide)
  · rw [hp, hc] at hname
    exact absurd hname (by decide)
  · rw [hp, hc]
    revert i
    decide

/-- Two packets of 1000 bytes on such an interface count as two bytes. -/
theorem netReference_near_docker :
    |referenceMbps (netRaw (dockerSample 1).text).rx (netRaw (dockerSample 3).text).rx -
      ((GrpcServer.storedSnapshot HostManager.empty 0 (({} : MonitorPusher).report
        { metrics := { interfaces :=
            (runFrom NetMonitor.collectSample (({} : NetMonitor).init (dockerSample 1).text)
              ([] ++ [dockerSample 3])).interfaces } })).netRxMbps -
        exactMbps 1 1999)| ≤ 1 / 20000 := by
  have hfits : SumsFit (dockerSample 1) ∧ SumsFit (dockerSample 3) := by
    refine ⟨⟨?_, ?_⟩, ⟨?_, ?_⟩⟩ <;> decide +kernel
  have hequal := (netReference_near (dockerSample 1) [] (dockerSample 3) rises_docker hfits
    HostManager.empty 0 {}
    { metrics := { interfaces :=
        (runFrom NetMonitor.collectSample (({} : NetMonitor).init (dockerSample 1).text)
          ([] ++ [dockerSample 3])).interfaces } } rfl).left.left
  have herror : netError (dockerSample 1) (dockerSample 3) 0 = -exactMbps 1 1999 := by
    have hprev : misread (dockerSample 1) 0 = -999 := by decide +kernel
    have hlast : misread (dockerSample 3) 0 = -2997 := by decide +kernel
    have hgone : unmatched (dockerSample 1) (dockerSample 3) 0 = 0 := rfl
    have hnew : unmatched (dockerSample 3) (dockerSample 1) 0 = 0 := rfl
    unfold netError
    rw [hprev, hlast, hgone, hnew]
    unfold exactMbps
    norm_num
  rw [sub_eq_add_neg _ (exactMbps 1 1999), ← herror]
  exact hequal

end EndToEnd
end PerfMonitor
