import Mathlib.Algebra.BigOperators.Group.List.Basic
import Mathlib.Tactic.Abel
import PerfMonitor.Foundation.Containers

/-!
# Joining two lists of rows

Two lists of rows with distinct keys are compared row by row: a row is paired with the
row of the other list that has its key, if there is one.  A sum over either list splits
into the paired rows and the rest, so the difference of two sums is made of the
differences of the pairs, the rows that are new and the rows that are gone.
-/

namespace PerfMonitor
namespace Foundation

section Joining

variable {ρ κ : Type*} [DecidableEq κ] (key : ρ -> κ)

def partner (rows : List ρ) (r : ρ) : Option ρ :=
  rows.find? (fun p => decide (key p = key r))

/-- The rows with one key, those of `prev` first. -/
def paired (prev cur : List ρ) : List (ρ × ρ) :=
  cur.filterMap (fun c => (partner key prev c).map (fun p => (p, c)))

def unpaired (rows others : List ρ) : List ρ :=
  rows.filter (fun r => (partner key others r).isNone)

variable {key} {prev cur : List ρ}

theorem mem_of_partner {p c : ρ} (h : partner key prev c = some p) : p ∈ prev ∧ key p = key c :=
  mem_of_find?_key h

theorem partner_of_mem (hdistinct : (prev.map key).Nodup) {p c : ρ} (hp : p ∈ prev)
    (hkey : key p = key c) : partner key prev c = some p := by
  unfold partner
  rw [← hkey]
  exact find?_key_of_mem hdistinct hp

theorem mem_paired {p c : ρ} :
    (p, c) ∈ paired key prev cur <-> c ∈ cur ∧ partner key prev c = some p := by
  unfold paired
  rw [List.mem_filterMap]
  constructor
  · rintro ⟨c', hc', hpair⟩
    rcases Option.map_eq_some_iff.mp hpair with ⟨p', hp', heq⟩
    injection heq with hp hc
    rw [← hp, ← hc]
    exact ⟨hc', hp'⟩
  · rintro ⟨hc, hp⟩
    exact ⟨c, hc, by rw [hp]; rfl⟩

theorem partner_isSome_iff {rows : List ρ} {r : ρ} :
    (partner key rows r).isSome = true <-> exists other, other ∈ rows ∧ key other = key r := by
  unfold partner
  rw [List.find?_isSome]
  simp only [decide_eq_true_eq]

theorem unpaired_eq_nil {rows others : List ρ}
    (hkeys : forall k, k ∈ rows.map key -> k ∈ others.map key) : unpaired key rows others = [] := by
  unfold unpaired
  apply List.filter_eq_nil_iff.mpr
  intro r hr hisNone
  rcases List.mem_map.mp (hkeys (key r) (List.mem_map_of_mem hr)) with ⟨other, hother, hkey⟩
  have hisSome := partner_isSome_iff.mpr ⟨other, hother, hkey⟩
  rw [Option.isNone_iff_eq_none.mp hisNone] at hisSome
  cases hisSome

theorem map_snd_paired :
    (paired key prev cur).map Prod.snd = cur.filter (fun c => (partner key prev c).isSome) := by
  unfold paired
  induction cur with
  | nil => rfl
  | cons c rest ih =>
      cases hpartner : partner key prev c with
      | none => simp [hpartner, ih]
      | some p => simp [hpartner, ih]

variable (key) in
theorem filterMap_partner {β : Type*} (g : ρ -> ρ -> Option β) :
    cur.filterMap (fun c => (partner key prev c).bind (fun p => g p c)) =
      (paired key prev cur).filterMap (fun q => g q.1 q.2) := by
  unfold paired
  rw [List.filterMap_filterMap]
  apply List.filterMap_congr
  intro c _
  cases partner key prev c with
  | none => rfl
  | some p => rfl

theorem map_fst_paired_perm (hprev : (prev.map key).Nodup) (hcur : (cur.map key).Nodup) :
    ((paired key prev cur).map Prod.fst).Perm
      (prev.filter (fun p => (partner key cur p).isSome)) := by
  have hkeys : ((paired key prev cur).map Prod.fst).map key =
      ((paired key prev cur).map Prod.snd).map key := by
    rw [List.map_map, List.map_map]
    apply List.map_congr_left
    rintro ⟨p, c⟩ hpair
    exact (mem_of_partner (mem_paired.mp hpair).right).right
  have hnodup : (((paired key prev cur).map Prod.fst).map key).Nodup := by
    rw [hkeys, map_snd_paired]
    exact hcur.sublist (List.filter_sublist.map key)
  apply (List.perm_ext_iff_of_nodup hnodup.of_map (hprev.of_map.filter _)).mpr
  intro p
  rw [List.mem_filter, partner_isSome_iff]
  constructor
  · intro hmem
    rcases List.mem_map.mp hmem with ⟨⟨p', c⟩, hpair, heq⟩
    rcases mem_paired.mp hpair with ⟨hc, hpartner⟩
    rcases mem_of_partner hpartner with ⟨hp, hkey⟩
    rw [← heq]
    exact ⟨hp, c, hc, hkey.symm⟩
  · rintro ⟨hp, c, hc, hkey⟩
    exact List.mem_map.mpr
      ⟨(p, c), mem_paired.mpr ⟨hc, partner_of_mem hprev hp hkey.symm⟩, rfl⟩

section Sums

theorem sum_filterMap {α β M : Type*} [AddMonoid M] (g : α -> Option β) (f : β -> M) (l : List α) :
    ((l.filterMap g).map f).sum = (l.map (fun x => ((g x).map f).getD 0)).sum := by
  induction l with
  | nil => rfl
  | cons x rest ih =>
      cases hx : g x with
      | none => simp [hx, ih]
      | some y => simp [hx, ih]

variable {M : Type*} [AddCommGroup M] (f : ρ -> M)

theorem sum_filter_add_sum_filter (p : ρ -> Bool) (rows : List ρ) :
    ((rows.filter p).map f).sum + ((rows.filter (fun r => !p r)).map f).sum = (rows.map f).sum := by
  rw [← List.sum_append, ← List.map_append]
  exact ((List.filter_append_perm p rows).map f).sum_eq

variable (key) in
theorem sum_unpaired (rows others : List ρ) :
    ((rows.filter (fun r => (partner key others r).isSome)).map f).sum +
      ((unpaired key rows others).map f).sum = (rows.map f).sum := by
  have hunpaired : unpaired key rows others =
      rows.filter (fun r => !(partner key others r).isSome) := by
    unfold unpaired
    apply List.filter_congr
    intro r _
    cases partner key others r with
    | none => rfl
    | some _ => rfl
  rw [hunpaired]
  exact sum_filter_add_sum_filter f _ rows

theorem sum_sub_sum_eq (hprev : (prev.map key).Nodup) (hcur : (cur.map key).Nodup) :
    (cur.map f).sum - (prev.map f).sum =
      ((paired key prev cur).map (fun q => f q.2 - f q.1)).sum +
        (((unpaired key cur prev).map f).sum - ((unpaired key prev cur).map f).sum) := by
  have hsecond : ((paired key prev cur).map (fun q => f q.2)).sum =
      ((cur.filter (fun c => (partner key prev c).isSome)).map f).sum := by
    rw [← map_snd_paired, List.map_map]
    rfl
  have hfirst : ((paired key prev cur).map (fun q => f q.1)).sum =
      ((prev.filter (fun p => (partner key cur p).isSome)).map f).sum := by
    rw [← ((map_fst_paired_perm hprev hcur).map f).sum_eq, List.map_map]
    rfl
  have hpairs : ((paired key prev cur).map (fun q => f q.2 - f q.1)).sum +
      ((paired key prev cur).map (fun q => f q.1)).sum =
        ((paired key prev cur).map (fun q => f q.2)).sum := by
    rw [← List.sum_map_add]
    simp only [sub_add_cancel]
  rw [← sum_unpaired key f cur prev, ← sum_unpaired key f prev cur, ← hsecond,
    ← hfirst, ← hpairs]
  abel

end Sums

end Joining

end Foundation
end PerfMonitor
