import Mathlib.Algebra.Ring.Nat
import Mathlib.Data.List.AList
import Mathlib.Data.List.DropRight

/-!
# Bounded tails and finite maps

Container facts shared by the components.  A list that only its last
elements are kept of may be truncated early: truncating before an append and
truncating after it agree.  A finite map, here `AList`, may be swept: all
entries that meet a predicate are erased in one pass over the table.
-/

namespace PerfMonitor
namespace Foundation

theorem append_cons_eq_append_cons {α : Type*} {a a' b b' : List α} {x x' : α}
    (h : a ++ x :: b = a' ++ x' :: b') :
    (a = a' ∧ x = x' ∧ b = b') ∨
      (exists c, a' = a ++ x :: c ∧ b = c ++ x' :: b') ∨
      (exists c, a = a' ++ x' :: c ∧ b' = c ++ x :: b) := by
  rcases List.append_eq_append_iff.mp h with ⟨c, hleft, hright⟩ | ⟨c, hleft, hright⟩
  · cases c with
    | nil =>
        injection hright with hx hb
        exact Or.inl ⟨by rw [hleft, List.append_nil], hx, hb⟩
    | cons y c =>
        injection hright with hx hb
        rw [← hx] at hleft
        exact Or.inr (Or.inl ⟨c, hleft, hb⟩)
  · cases c with
    | nil =>
        injection hright with hx hb
        exact Or.inl ⟨by rw [hleft, List.append_nil], hx.symm, hb.symm⟩
    | cons y c =>
        injection hright with hx hb
        rw [← hx] at hleft
        exact Or.inr (Or.inr ⟨c, hleft, hb⟩)

/-- In a list of options with their values, a value that is no option follows an option
only where it was given to it. -/
theorem infix_flatMap_pair_iff {α : Type*} {pairs : List (α × α)} {option value : α}
    (hvalue : forall p, p ∈ pairs -> p.1 ≠ value) :
    [option, value] <:+: pairs.flatMap (fun p => [p.1, p.2]) <-> (option, value) ∈ pairs := by
  induction pairs with
  | nil => simp
  | cons p rest ih =>
      have hrest := ih (fun q hq => hvalue q (List.mem_cons_of_mem p hq))
      have hskewed : ¬ [option, value] <+: p.2 :: rest.flatMap (fun p => [p.1, p.2]) := by
        intro hprefix
        have htail := (List.cons_prefix_cons.mp hprefix).right
        cases rest with
        | nil => exact List.cons_ne_nil _ _ (List.prefix_nil.mp htail)
        | cons q more =>
            have heq := (List.cons_prefix_cons.mp htail).left
            exact hvalue q (by simp) heq.symm
      show [option, value] <:+: p.1 :: p.2 :: rest.flatMap (fun p => [p.1, p.2]) <-> _
      rw [List.infix_cons_iff, List.infix_cons_iff, or_iff_right hskewed, hrest, List.mem_cons,
        List.cons_prefix_cons, List.cons_prefix_cons, Prod.ext_iff]
      simp

/-!
## Bounded tails
-/

section Tails

variable {α : Type*}

theorem rtake_of_length_le {l : List α} {n : Nat} (h : l.length ≤ n) :
    l.rtake n = l := by
  have hdrop : l.length - n = 0 := by omega
  simp [List.rtake, hdrop]

theorem rtake_rtake_append (l r : List α) (n : Nat) :
    (l.rtake n ++ r).rtake n = (l ++ r).rtake n := by
  have hlen : (l.rtake n).length = min l.length n := by
    simp only [List.rtake, List.length_drop]
    omega
  unfold List.rtake at hlen ⊢
  have happend : l.drop (l.length - n) ++ r = (l ++ r).drop (l.length - n) :=
    (List.drop_append_of_le_length (by omega)).symm
  rw [happend, List.drop_drop]
  congr 1
  simp only [List.length_drop, List.length_append]
  omega

theorem rtake_map {β : Type*} (f : α -> β) (l : List α) (n : Nat) :
    (l.map f).rtake n = (l.rtake n).map f := by
  unfold List.rtake
  rw [List.length_map, List.map_drop]

theorem rtake_append (l r : List α) (n : Nat) :
    (l ++ r).rtake n = l.drop (l.length + r.length - n) ++ r.rtake n := by
  have hright : l.length + r.length - n - l.length = r.length - n := by omega
  unfold List.rtake
  rw [List.length_append, List.drop_append, hright]

end Tails

/-!
## Removing a head of a rearrangement
-/

section Heads

variable {α : Type*} [DecidableEq α]

theorem filter_notMem_take {l : List α} (hnodup : l.Nodup) (n : Nat) :
    l.filter (fun a => decide (a ∉ l.take n)) = l.drop n := by
  have hparts : (l.take n ++ l.drop n).Nodup := by
    rw [List.take_append_drop]
    exact hnodup
  have hdisjoint := List.disjoint_of_nodup_append hparts
  calc
    l.filter (fun a => decide (a ∉ l.take n)) =
        (l.take n ++ l.drop n).filter (fun a => decide (a ∉ l.take n)) := by
      rw [List.take_append_drop]
    _ = [] ++ l.drop n := by
      rw [List.filter_append]
      congr 1
      · apply List.filter_eq_nil_iff.mpr
        intro a ha
        simpa using ha
      · apply List.filter_eq_self.mpr
        intro a ha
        simpa using fun hhead => hdisjoint hhead ha
    _ = l.drop n := rfl

theorem length_filter_notMem_take {l arranged : List α} (hperm : arranged.Perm l)
    (hnodup : l.Nodup) (n : Nat) :
    (l.filter (fun a => decide (a ∉ arranged.take n))).length = l.length - n := by
  rw [← (hperm.filter _).length_eq, filter_notMem_take (hperm.nodup_iff.mpr hnodup),
    List.length_drop, hperm.length_eq]

end Heads

/-!
## Rows with distinct keys
-/

section Rows

variable {ρ κ : Type*} [DecidableEq κ] {key : ρ -> κ} {rows : List ρ}

theorem find?_key_of_mem (hdistinct : (rows.map key).Nodup) {r : ρ} (hr : r ∈ rows) :
    rows.find? (fun r' => decide (key r' = key r)) = some r := by
  cases hfind : rows.find? (fun r' => decide (key r' = key r)) with
  | none =>
      have hnot := List.find?_eq_none.mp hfind r hr
      exact absurd (decide_eq_true rfl) hnot
  | some r' =>
      have hkey : key r' = key r := by
        have hr' := List.find?_some hfind
        exact of_decide_eq_true hr'
      rw [List.inj_on_of_nodup_map hdistinct (List.mem_of_find?_eq_some hfind) hr hkey]

theorem find?_eq_some_of_unique {p : ρ -> Bool} {r : ρ} (hr : r ∈ rows) (hp : p r = true)
    (honly : forall r', r' ∈ rows -> p r' = true -> r' = r) : rows.find? p = some r := by
  cases hfind : rows.find? p with
  | none => exact absurd hp (List.find?_eq_none.mp hfind r hr)
  | some r' =>
      rw [honly r' (List.mem_of_find?_eq_some hfind) (List.find?_some hfind)]

theorem mem_of_find?_key {k : κ} {r : ρ}
    (h : rows.find? (fun r' => decide (key r' = k)) = some r) : r ∈ rows ∧ key r = k := by
  refine ⟨List.mem_of_find?_eq_some h, ?_⟩
  have hr := List.find?_some h
  exact of_decide_eq_true hr

theorem find?_key_filter (hdistinct : (rows.map key).Nodup) (p : ρ -> Bool) (k : κ) :
    (rows.filter p).find? (fun r => decide (key r = k)) =
      (rows.find? (fun r => decide (key r = k))).filter p := by
  have hkept : ((rows.filter p).map key).Nodup := hdistinct.sublist (List.filter_sublist.map key)
  cases hfind : rows.find? (fun r => decide (key r = k)) with
  | none =>
      apply List.find?_eq_none.mpr
      intro r hr
      exact List.find?_eq_none.mp hfind r (List.mem_of_mem_filter hr)
  | some r =>
      rcases mem_of_find?_key hfind with ⟨hr, hkey⟩
      cases hp : p r with
      | true =>
          rw [Option.filter_some_pos hp, ← hkey]
          exact find?_key_of_mem hkept (List.mem_filter.mpr ⟨hr, hp⟩)
      | false =>
          rw [Option.filter_some_neg hp]
          apply List.find?_eq_none.mpr
          intro r' hr' heq
          rcases List.mem_filter.mp hr' with ⟨hmem, hp'⟩
          have hsame : r' = r :=
            List.inj_on_of_nodup_map hdistinct hmem hr ((of_decide_eq_true heq).trans hkey.symm)
          rw [hsame, hp] at hp'
          cases hp'

theorem foldl_find?_key {σ α : Type*} {get : σ -> α} {step : σ -> ρ -> σ} {value : ρ -> α} {k : κ}
    (hstep : forall s r, get (step s r) = if key r = k then value r else get s)
    (hdistinct : (rows.map key).Nodup) (s : σ) :
    get (rows.foldl step s) =
      ((rows.find? (fun r => decide (key r = k))).map value).getD (get s) := by
  induction rows generalizing s with
  | nil => rfl
  | cons r rest ih =>
      rw [List.map_cons, List.nodup_cons] at hdistinct
      rw [List.foldl_cons, ih hdistinct.right, hstep]
      by_cases hkey : key r = k
      · have hnone : rest.find? (fun r => decide (key r = k)) = none := by
          apply List.find?_eq_none.mpr
          intro r' hr' heq
          apply hdistinct.left
          rw [hkey, ← of_decide_eq_true heq]
          exact List.mem_map_of_mem hr'
        have hfirst : (r :: rest).find? (fun r => decide (key r = k)) = some r :=
          List.find?_cons_of_pos (decide_eq_true hkey)
        rw [if_pos hkey, hnone, hfirst]
        rfl
      · have hlater : (r :: rest).find? (fun r => decide (key r = k)) =
            rest.find? (fun r => decide (key r = k)) :=
          List.find?_cons_of_neg (by simpa using hkey)
        rw [if_neg hkey, hlater]

end Rows

/-!
## Sweeping a finite map
-/

section Maps

variable {κ ν : Type*} [DecidableEq κ]

abbrev Table (κ ν : Type*) := AList (fun _ : κ => ν)

namespace Table

def eraseIf (p : κ -> ν -> Bool) (m : Table κ ν) : Table κ ν where
  entries := m.entries.filter (fun e => !p e.1 e.2)
  nodupKeys := m.nodupKeys.sublist List.filter_sublist

def values (m : Table κ ν) : List ν :=
  m.entries.map (fun e => e.2)

theorem exists_lookup {m : Table κ ν} {k : κ} (h : k ∈ m) : exists v, m.lookup k = some v :=
  Option.isSome_iff_exists.mp (AList.lookup_isSome.mpr h)

theorem mem_of_lookup {m : Table κ ν} {k : κ} {v : ν} (h : m.lookup k = some v) : k ∈ m := by
  apply AList.lookup_isSome.mp
  rw [h]
  rfl

omit [DecidableEq κ] in
theorem length_keys (m : Table κ ν) : m.keys.length = m.entries.length :=
  List.length_map _

theorem mem_values {m : Table κ ν} {v : ν} : v ∈ m.values <-> exists k, m.lookup k = some v := by
  unfold values
  constructor
  · intro hv
    rcases List.mem_map.mp hv with ⟨e, he, hev⟩
    rw [← hev]
    exact ⟨e.1, AList.mem_lookup_iff.mpr he⟩
  · rintro ⟨k, hk⟩
    exact List.mem_map.mpr ⟨⟨k, v⟩, AList.mem_lookup_iff.mp hk, rfl⟩

theorem mem_filterMap_entries {ρ : Type*} {g : Sigma (fun _ : κ => ν) -> Option ρ}
    {m : Table κ ν} {r : ρ} :
    r ∈ m.entries.filterMap g <-> exists k v, m.lookup k = some v ∧ g ⟨k, v⟩ = some r := by
  rw [List.mem_filterMap]
  constructor
  · rintro ⟨⟨k, v⟩, he, hr⟩
    exact ⟨k, v, AList.mem_lookup_iff.mpr he, hr⟩
  · rintro ⟨k, v, hk, hr⟩
    exact ⟨⟨k, v⟩, AList.mem_lookup_iff.mp hk, hr⟩

omit [DecidableEq κ] in
theorem length_values_le_one_iff {m : Table κ ν} :
    m.values.length ≤ 1 <-> forall k k', k ∈ m -> k' ∈ m -> k = k' := by
  have hlength : m.values.length = m.keys.length := by
    rw [length_keys, values, List.length_map]
  rw [hlength]
  constructor
  · intro hone k k' hk hk'
    change k ∈ m.keys at hk
    change k' ∈ m.keys at hk'
    cases hkeys : m.keys with
    | nil =>
        rw [hkeys] at hk
        cases hk
    | cons first rest =>
        rw [hkeys] at hk hk' hone
        have hrest : rest = [] :=
          List.length_eq_zero_iff.mp (Nat.le_zero.mp (Nat.le_of_succ_le_succ hone))
        rw [hrest] at hk hk'
        rw [List.mem_singleton.mp hk, List.mem_singleton.mp hk']
  · intro hsame
    have hnodup := m.keys_nodup
    cases hkeys : m.keys with
    | nil => exact Nat.zero_le 1
    | cons first rest =>
        cases rest with
        | nil => exact Nat.le_refl 1
        | cons second rest =>
            exfalso
            rw [hkeys] at hnodup
            have hfirst : first ∈ m := by
              show first ∈ m.keys
              rw [hkeys]
              exact List.mem_cons_self
            have hsecond : second ∈ m := by
              show second ∈ m.keys
              rw [hkeys]
              exact List.mem_cons_of_mem _ List.mem_cons_self
            apply (List.nodup_cons.mp hnodup).left
            rw [hsame first second hfirst hsecond]
            exact List.mem_cons_self

theorem lookup_eraseIf (p : κ -> ν -> Bool) (m : Table κ ν) (k : κ) :
    (eraseIf p m).lookup k = (m.lookup k).filter (fun v => !p k v) := by
  apply Option.ext
  intro v
  rw [← Option.mem_def, ← Option.mem_def, Option.mem_filter_iff,
    AList.mem_lookup_iff, AList.mem_lookup_iff]
  simp [eraseIf]

omit [DecidableEq κ] in
theorem keys_eraseIf (p : κ -> Bool) (m : Table κ ν) :
    (eraseIf (fun k _ => p k) m).keys = m.keys.filter (fun k => !p k) := by
  show (m.entries.filter _).map Sigma.fst = (m.entries.map Sigma.fst).filter _
  rw [List.filter_map]
  rfl

theorem mem_eraseIf_keys (p : κ -> Bool) (m : Table κ ν) (k : κ) :
    k ∈ eraseIf (fun k _ => p k) m <-> k ∈ m ∧ p k = false := by
  rw [← AList.lookup_isSome, ← AList.lookup_isSome, lookup_eraseIf]
  cases m.lookup k with
  | none => simp
  | some v => simp

omit [DecidableEq κ] in
theorem eraseIf_eraseIf (p q : κ -> ν -> Bool) (m : Table κ ν) :
    eraseIf q (eraseIf p m) = eraseIf (fun k v => p k v || q k v) m := by
  apply AList.ext
  show (m.entries.filter _).filter _ = m.entries.filter _
  rw [List.filter_filter]
  congr 1
  funext e
  show (!q e.1 e.2 && !p e.1 e.2) = !(p e.1 e.2 || q e.1 e.2)
  rw [Bool.not_or, Bool.and_comm]

omit [DecidableEq κ] in
theorem eraseIf_eq_self {p : κ -> ν -> Bool} {m : Table κ ν}
    (hp : forall k v, p k v = false) : eraseIf p m = m := by
  apply AList.ext
  apply List.filter_eq_self.mpr
  intro e _
  rw [hp]
  rfl

theorem keys_insert_of_mem {k : κ} {m : Table κ ν} (hk : k ∈ m) (v : ν) :
    (m.insert k v).keys.Perm m.keys := by
  rw [AList.keys_insert]
  exact (List.perm_cons_erase (AList.mem_keys.mp hk)).symm

theorem keys_insert_of_notMem {k : κ} {m : Table κ ν} (hk : k ∉ m) (v : ν) :
    (m.insert k v).keys = k :: m.keys := by
  rw [AList.keys_insert, List.erase_of_not_mem (fun h => hk (AList.mem_keys.mpr h))]

theorem filter_filterMap_entries {ρ : Type*} {g : Sigma (fun _ : κ => ν) -> Option ρ}
    {name : ρ -> κ} (m : Table κ ν)
    (hname : forall e, e ∈ m.entries -> forall r, g e = some r -> name r = e.1) (k : κ) :
    (m.entries.filterMap g).filter (fun r => decide (name r = k)) =
      ((m.lookup k).bind (fun v => g ⟨k, v⟩)).toList := by
  rcases m with ⟨entries, hnodup⟩
  show (entries.filterMap g).filter (fun r => decide (name r = k)) =
    ((List.dlookup k entries).bind (fun v => g ⟨k, v⟩)).toList
  induction entries with
  | nil => rfl
  | cons e rest ih =>
      rcases List.nodupKeys_cons.mp hnodup with ⟨hfresh, hrest⟩
      have hself := hname e List.mem_cons_self
      have htail : forall e, e ∈ rest -> forall r, g e = some r -> name r = e.1 := by
        intro e he
        exact hname e (List.mem_cons_of_mem _ he)
      rcases e with ⟨k', v⟩
      by_cases hk : k' = k
      · subst hk
        have hnone : List.dlookup k' rest = none := List.dlookup_eq_none.mpr hfresh
        have hothers := ih hrest htail
        rw [hnone] at hothers
        rw [List.dlookup_cons_eq, Option.bind_some]
        cases hg : g ⟨k', v⟩ with
        | none =>
            rw [List.filterMap_cons_none hg]
            exact hothers
        | some r =>
            rw [List.filterMap_cons_some hg,
              List.filter_cons_of_pos (by simpa using hself r hg), hothers]
            rfl
      · rw [List.dlookup_cons_ne rest ⟨k', v⟩ (fun h => hk h.symm)]
        cases hg : g ⟨k', v⟩ with
        | none =>
            rw [List.filterMap_cons_none hg]
            exact ih hrest htail
        | some r =>
            have hne : ¬ name r = k := by
              rw [hself r hg]
              exact hk
            rw [List.filterMap_cons_some hg, List.filter_cons_of_neg (by simpa using hne)]
            exact ih hrest htail

/-- When every value names its own key, the values of one name are the value
looked up under it: one if the key is present, none otherwise. -/
theorem filter_values {name : ν -> κ} (m : Table κ ν)
    (hname : forall e, e ∈ m.entries -> name e.2 = e.1) (k : κ) :
    m.values.filter (fun v => decide (name v = k)) = (m.lookup k).toList := by
  have hvalues : m.values = m.entries.filterMap (fun e => some e.2) := by
    unfold values
    rw [← List.filterMap_eq_map]
    rfl
  rw [hvalues, filter_filterMap_entries m]
  · cases m.lookup k with
    | none => rfl
    | some v => rfl
  · intro e he r hr
    injection hr with hr
    rw [← hr]
    exact hname e he

def insertAll (m : Table κ ν) (pairs : List (κ × ν)) : Table κ ν :=
  pairs.foldl (fun m pair => m.insert pair.1 pair.2) m

theorem lookup_insertAll_of_notMem {k : κ} {pairs : List (κ × ν)}
    (hk : k ∉ pairs.map Prod.fst) (m : Table κ ν) :
    (insertAll m pairs).lookup k = m.lookup k := by
  induction pairs generalizing m with
  | nil => rfl
  | cons pair rest ih =>
      rw [List.map_cons] at hk
      have hne : k ≠ pair.1 := fun heq => hk (heq ▸ List.mem_cons_self)
      have htail := ih (fun hmem => hk (List.mem_cons_of_mem _ hmem)) (m.insert pair.1 pair.2)
      rw [AList.lookup_insert_ne hne] at htail
      exact htail

theorem lookup_insertAll_of_mem {k : κ} {v : ν} {pairs : List (κ × ν)}
    (hnodup : (pairs.map Prod.fst).Nodup) (hmem : (k, v) ∈ pairs) (m : Table κ ν) :
    (insertAll m pairs).lookup k = some v := by
  induction pairs generalizing m with
  | nil => cases hmem
  | cons pair rest ih =>
      rcases List.nodup_cons.mp hnodup with ⟨hfresh, hrest⟩
      rcases List.mem_cons.mp hmem with heq | hlater
      · subst heq
        have hlast := lookup_insertAll_of_notMem hfresh (m.insert k v)
        rw [AList.lookup_insert] at hlast
        exact hlast
      · exact ih hrest hlater (m.insert pair.1 pair.2)

theorem lookup_insertAll_rows {ρ : Type*} {key : ρ -> κ} {rows : List ρ}
    (hdistinct : (rows.map key).Nodup) (value : ρ -> ν) {m : Table κ ν} {k : κ}
    (hm : m.lookup k = none) :
    (insertAll m (rows.map (fun r => (key r, value r)))).lookup k =
      (rows.find? (fun r => decide (key r = k))).map value := by
  have hkeys : (rows.map (fun r => (key r, value r))).map Prod.fst = rows.map key := by
    rw [List.map_map]
    rfl
  cases hfind : rows.find? (fun r => decide (key r = k)) with
  | none =>
      rw [lookup_insertAll_of_notMem _ m, hm]
      · rfl
      · rw [hkeys]
        intro hmem
        rcases List.mem_map.mp hmem with ⟨r, hr, heq⟩
        have hnot := List.find?_eq_none.mp hfind r hr
        exact hnot (decide_eq_true heq)
  | some r =>
      rcases mem_of_find?_key hfind with ⟨hr, hkey⟩
      rw [← hkey]
      apply lookup_insertAll_of_mem
      · rw [hkeys]
        exact hdistinct
      · exact List.mem_map_of_mem hr

theorem entries_perm_rows {ρ : Type*} {key : ρ -> κ} {rows : List ρ}
    (hdistinct : (rows.map key).Nodup) {value : ρ -> ν} {m : Table κ ν}
    (hm : forall k, m.lookup k = (rows.find? (fun r => decide (key r = k))).map value) :
    m.entries.Perm (rows.map (fun r => Sigma.mk (key r) (value r))) := by
  have hkeys : (rows.map (fun r => (⟨key r, value r⟩ : Sigma (fun _ : κ => ν)))).keys =
      rows.map key := by
    rw [List.keys, List.map_map]
    rfl
  have hrows : (rows.map (fun r => (⟨key r, value r⟩ : Sigma (fun _ : κ => ν)))).NodupKeys := by
    unfold List.NodupKeys
    rw [hkeys]
    exact hdistinct
  apply (List.perm_ext_iff_of_nodup m.nodupKeys.nodup hrows.nodup).mpr
  rintro ⟨k, v⟩
  rw [← AList.mem_lookup_iff, hm, Option.mem_def, Option.map_eq_some_iff, List.mem_map]
  constructor
  · rintro ⟨r, hfind, hvalue⟩
    rcases mem_of_find?_key hfind with ⟨hr, hkey⟩
    exact ⟨r, hr, by rw [hkey, hvalue]⟩
  · rintro ⟨r, hr, heq⟩
    cases heq
    exact ⟨r, find?_key_of_mem hdistinct hr, rfl⟩

/-!
A sum over the entries of a table.
-/

def total (f : ν -> Nat) (m : Table κ ν) : Nat :=
  (m.entries.map (fun e => f e.2)).sum

theorem total_congr {m m' : Table κ ν} (h : forall k, m'.lookup k = m.lookup k) (f : ν -> Nat) :
    m'.total f = m.total f := by
  have hperm : m'.entries.Perm m.entries := by
    apply List.lookup_ext m'.nodupKeys m.nodupKeys
    intro k v
    have hk := h k
    unfold AList.lookup at hk
    rw [hk]
  exact (hperm.map _).sum_nat

theorem total_erase (f : ν -> Nat) (m : Table κ ν) (k : κ) :
    m.total f = ((m.lookup k).map f).getD 0 + Table.total f (m.erase k) := by
  cases hk : m.lookup k with
  | none =>
      have hsame : forall k', (m.erase k).lookup k' = m.lookup k' := by
        intro k'
        by_cases hne : k' = k
        · rw [hne, AList.lookup_erase, hk]
        · exact AList.lookup_erase_ne hne
      rw [total_congr hsame]
      exact (Nat.zero_add _).symm
  | some v =>
      have hmem : k ∈ m.entries.keys := mem_of_lookup hk
      rcases List.exists_of_kerase hmem with ⟨v', before, after, _hfresh, hentries, herase⟩
      have hv : v' = v := by
        have hlookup : m.lookup k = some v' := by
          apply AList.mem_lookup_iff.mpr
          rw [hentries]
          exact List.mem_append_right _ List.mem_cons_self
        rw [hlookup] at hk
        injection hk
      unfold total
      show (m.entries.map _).sum = f v + ((m.entries.kerase k).map _).sum
      rw [herase, hentries, List.map_append, List.map_append, List.sum_append, List.sum_append,
        List.map_cons, List.sum_cons, hv]
      exact Nat.add_left_comm _ _ _

theorem total_frame {m m' : Table κ ν} {k : κ}
    (h : forall k', k' ≠ k -> m'.lookup k' = m.lookup k') (f : ν -> Nat) :
    m'.total f + ((m.lookup k).map f).getD 0 = m.total f + ((m'.lookup k).map f).getD 0 := by
  have hothers : forall k', (m'.erase k).lookup k' = (m.erase k).lookup k' := by
    intro k'
    by_cases hne : k' = k
    · rw [hne, AList.lookup_erase, AList.lookup_erase]
    · rw [AList.lookup_erase_ne hne, AList.lookup_erase_ne hne]
      exact h k' hne
  have hrest := total_congr hothers f
  have hm := total_erase f m k
  have hm' := total_erase f m' k
  omega

end Table

end Maps

end Foundation
end PerfMonitor
