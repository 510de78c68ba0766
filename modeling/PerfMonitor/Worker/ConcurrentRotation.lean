import PerfMonitor.Foundation.Regions
import PerfMonitor.Worker.NewestFiles

/-!
# Rotation by two threads

The two diagnosers rotate their files in threads of their own, in one directory and
without a lock.  Here `cleanup_files` is a sequence of system calls, between which other
threads and tools make theirs.  Files of different prefixes are apart, and so every
rotation has the effect that it has as one step.
-/

namespace PerfMonitor
namespace Worker

open Foundation

inductive FileCall where
  | create (path : Str) (st : FileStat)
  | write (path : Str) (st : FileStat)
  | unlink (path : Str)
deriving DecidableEq, Repr

namespace FileCall

def path : FileCall -> Str
  | .create path _ => path
  | .write path _ => path
  | .unlink path => path

def perform (disk : Disk) : FileCall -> Disk
  | .create path st => disk.insert path st
  | .write path st => disk.write path st
  | .unlink path => disk.erase path

end FileCall

/-- A call of `cleanup_files`, with what `opendir` and `readdir` answer. -/
structure Cleanup where
  limit : Int
  pre : Str
  opens : Bool
  order : List Str

inductive FileProgram where
  | cleanup (c : Cleanup)
  | calls (todo : List FileCall)

/-- Where a program stands: a rotation reads the directory into `files`, and then unlinks
the paths that are `left`. -/
inductive FileActivity where
  | starting
  | reading (rest : List Str) (files : List (Int ×ₗ Str))
  | deleting (left : List Str)
  | calling (todo : List FileCall)
  | done

namespace Disk

/-- What `stat` of a path adds to `files`. -/
def aged (disk : Disk) (path : Str) : List (Int ×ₗ Str) :=
  match disk.lookup path with
  | none => []
  | some st => [toLex (st.mtime, path)]

end Disk

namespace Cleanup

variable (c : Cleanup) (dir : Str)

def wanted (name : Str) : Bool :=
  decide (name.head? ≠ some '.') && c.pre.isPrefixOf name

/-- What a name that `readdir` has returned adds to `files`. -/
def entry (disk : Disk) (name : Str) : List (Int ×ₗ Str) :=
  if c.wanted name then disk.aged (dir ++ '/' :: name) else []

def oldest (files : List (Int ×ₗ Str)) : List Str :=
  ((files.insertionSort (· ≤ ·)).take (Disk.excess c.limit files.length)).map
    (fun f => (ofLex f).2)

def act (l : FileActivity) (disk : Disk) : FileActivity × Disk :=
  match l with
  | .starting =>
      if c.limit ≤ 0 then (.done, disk)
      else if c.opens then (.reading c.order [], disk)
      else (.done, disk)
  | .reading (name :: rest) files => (.reading rest (files ++ c.entry dir disk name), disk)
  | .reading [] files =>
      if Int.bmod files.length (2 ^ 32) ≤ c.limit then (.done, disk)
      else (.deleting (c.oldest files), disk)
  | .deleting (path :: rest) => (.deleting rest, disk.erase path)
  | .deleting [] => (.done, disk)
  | .calling todo => (.calling todo, disk)
  | .done => (.done, disk)

/-- The names that `readdir` returns: those of the files with the prefix once each, in any
order and among any others. -/
structure Lists (disk : Disk) : Prop where
  files : ((c.order.filter c.wanted).map (fun name => dir ++ '/' :: name)).Perm
    (disk.keys.filter (Disk.isMatch dir c.pre))

def Owns (names : List Str) : Prop :=
  forall name, name ∈ names -> c.wanted name = true ->
    Disk.isMatch dir c.pre (dir ++ '/' :: name) = true

def effect (disk : Disk) : Disk :=
  if c.opens then disk.cleanupFiles dir c.limit c.pre else disk

end Cleanup

namespace FileProgram

variable (dir : Str)

def start : FileProgram -> FileActivity
  | .cleanup _ => .starting
  | .calls todo => .calling todo

def act (program : FileProgram) (l : FileActivity) (disk : Disk) : FileActivity × Disk :=
  match program with
  | .cleanup c => c.act dir l disk
  | .calls _ =>
      match l with
      | .calling (call :: rest) => (.calling rest, call.perform disk)
      | .calling [] => (.done, disk)
      | other => (other, disk)

def effect (program : FileProgram) (disk : Disk) : Disk :=
  match program with
  | .cleanup c => c.effect dir disk
  | .calls todo => todo.foldl FileCall.perform disk

def length : FileProgram -> Nat
  | .cleanup c => 2 * c.order.length + 3
  | .calls todo => todo.length + 1

/-- What `readdir` answers is right for the directory as it is at the beginning. -/
def Answered (program : FileProgram) (disk : Disk) : Prop :=
  match program with
  | .cleanup c => c.Lists dir disk
  | .calls _ => True

def Touches (program : FileProgram) (path : Str) : Prop :=
  match program with
  | .cleanup c => Disk.isMatch dir c.pre path = true
  | .calls todo => exists call, call ∈ todo ∧ call.path = path

def Good (program : FileProgram) (l : FileActivity) : Prop :=
  match l with
  | .starting => forall c, program = .cleanup c -> c.Owns dir c.order
  | .reading rest files =>
      (forall c, program = .cleanup c -> c.Owns dir rest) ∧
        forall f, f ∈ files -> program.Touches dir (ofLex f).2
  | .deleting left => forall path, path ∈ left -> program.Touches dir path
  | .calling todo => forall call, call ∈ todo -> program.Touches dir call.path
  | .done => True

end FileProgram

section Separation

variable {dir : Str} {c : Cleanup}

theorem Cleanup.Lists.owns {disk : Disk} (h : c.Lists dir disk) : c.Owns dir c.order := by
  intro name hname hwanted
  have hlisted := h.files.mem_iff.mp
    (List.mem_map_of_mem (List.mem_filter.mpr ⟨hname, hwanted⟩))
  exact (List.mem_filter.mp hlisted).right

theorem Disk.mem_aged {disk : Disk} {path : Str} {f : Int ×ₗ Str} (h : f ∈ disk.aged path) :
    (ofLex f).2 = path := by
  unfold Disk.aged at h
  split at h
  · cases h
  · rw [List.mem_singleton.mp h]
    rfl

theorem Cleanup.mem_entry {names : List Str} (howns : c.Owns dir names) {disk : Disk} {name : Str}
    (hname : name ∈ names) {f : Int ×ₗ Str} (h : f ∈ c.entry dir disk name) :
    Disk.isMatch dir c.pre (ofLex f).2 = true := by
  unfold Cleanup.entry at h
  split at h
  case isTrue hwanted =>
    rw [Disk.mem_aged h]
    exact howns name hname hwanted
  case isFalse => cases h

theorem Cleanup.mem_oldest {files : List (Int ×ₗ Str)} {path : Str}
    (h : path ∈ c.oldest files) :
    exists f, f ∈ files ∧ (ofLex f).2 = path := by
  rcases List.mem_map.mp h with ⟨f, hf, hpath⟩
  exact ⟨f, (List.mem_insertionSort (· ≤ ·)).mp (List.mem_of_mem_take hf), hpath⟩

theorem FileCall.lookup_perform_of_ne (call : FileCall) (disk : Disk) {path : Str}
    (hpath : call.path ≠ path) : (call.perform disk).lookup path = disk.lookup path := by
  cases call with
  | create own st => exact AList.lookup_insert_ne hpath.symm
  | write own st =>
      show (Disk.write own st disk).lookup path = _
      unfold Disk.write
      split
      · exact AList.lookup_insert_ne hpath.symm
      · rfl
  | unlink own => exact AList.lookup_erase_ne hpath.symm

theorem FileCall.lookup_perform_congr (call : FileCall) {disk disk' : Disk} {path : Str}
    (hown : disk.lookup call.path = disk'.lookup call.path)
    (hpath : disk.lookup path = disk'.lookup path) :
    (call.perform disk).lookup path = (call.perform disk').lookup path := by
  by_cases hsame : call.path = path
  · subst hsame
    cases call with
    | create own st => exact (AList.lookup_insert disk).trans (AList.lookup_insert disk').symm
    | write own st =>
        have hmem : own ∈ disk <-> own ∈ disk' := by
          rw [← AList.lookup_isSome, ← AList.lookup_isSome]
          exact iff_of_eq (congrArg (fun o => Option.isSome o = true) hown)
        show (Disk.write own st disk).lookup own = (Disk.write own st disk').lookup own
        unfold Disk.write
        by_cases hdisk : own ∈ disk
        · rw [if_pos hdisk, if_pos (hmem.mp hdisk), AList.lookup_insert, AList.lookup_insert]
        · rw [if_neg hdisk, if_neg (fun h => hdisk (hmem.mpr h))]
          exact hown
    | unlink own => exact (AList.lookup_erase own disk).trans (AList.lookup_erase own disk').symm
  · rw [call.lookup_perform_of_ne disk hsame, call.lookup_perform_of_ne disk' hsame]
    exact hpath

namespace FileProgram

variable {program : FileProgram} {l : FileActivity}

theorem good_act (hgood : program.Good dir l) (disk : Disk) :
    program.Good dir (program.act dir l disk).1 := by
  cases program with
  | calls todo =>
      match l, hgood with
      | .calling (call :: rest), hgood =>
          exact fun other hother => hgood other (List.mem_cons_of_mem _ hother)
      | .calling [], _ => trivial
      | .starting, hgood => exact hgood
      | .reading _ _, hgood => exact hgood
      | .deleting _, hgood => exact hgood
      | .done, _ => trivial
  | cleanup c =>
      match l, hgood with
      | .starting, hgood =>
          show Good dir _ (c.act dir .starting disk).1
          simp only [Cleanup.act]
          split
          · trivial
          · split
            · constructor
              · rintro own ⟨⟩
                exact hgood c rfl
              · rintro f ⟨⟩
            · trivial
      | .reading (name :: rest) files, hgood =>
          refine ⟨fun own heq other hother =>
            hgood.left own heq other (List.mem_cons_of_mem _ hother), ?_⟩
          intro f hf
          rcases List.mem_append.mp hf with hf | hf
          · exact hgood.right f hf
          · exact Cleanup.mem_entry (hgood.left c rfl) List.mem_cons_self hf
      | .reading [] files, hgood =>
          show Good dir _ (c.act dir (.reading [] files) disk).1
          simp only [Cleanup.act]
          split
          · trivial
          · intro path hpath
            rcases Cleanup.mem_oldest hpath with ⟨f, hf, rfl⟩
            exact hgood.right f hf
      | .deleting (path :: rest), hgood =>
          exact fun other hother => hgood other (List.mem_cons_of_mem _ hother)
      | .deleting [], _ => trivial
      | .calling _, hgood => exact hgood
      | .done, _ => trivial

theorem lookup_act_of_not_touches (hgood : program.Good dir l) (disk : Disk) {path : Str}
    (hpath : ¬ program.Touches dir path) :
    (program.act dir l disk).2.lookup path = disk.lookup path := by
  cases program with
  | calls todo =>
      match l, hgood with
      | .calling (call :: rest), hgood =>
          apply call.lookup_perform_of_ne disk
          rintro rfl
          exact hpath (hgood call List.mem_cons_self)
      | .calling [], _ => rfl
      | .starting, _ => rfl
      | .reading _ _, _ => rfl
      | .deleting _, _ => rfl
      | .done, _ => rfl
  | cleanup c =>
      match l, hgood with
      | .starting, _ =>
          show (c.act dir .starting disk).2.lookup path = _
          simp only [Cleanup.act]
          split
          · rfl
          · split <;> rfl
      | .reading (name :: rest) files, _ => rfl
      | .reading [] files, _ =>
          show (c.act dir (.reading [] files) disk).2.lookup path = _
          simp only [Cleanup.act]
          split <;> rfl
      | .deleting (own :: rest), hgood =>
          apply AList.lookup_erase_ne
          rintro rfl
          exact hpath (hgood _ List.mem_cons_self)
      | .deleting [], _ => rfl
      | .calling _, _ => rfl
      | .done, _ => rfl

theorem act_congr (hgood : program.Good dir l) {disk disk' : Disk}
    (hown : forall path, program.Touches dir path -> disk.lookup path = disk'.lookup path) :
    (program.act dir l disk).1 = (program.act dir l disk').1 ∧
      forall path, disk.lookup path = disk'.lookup path ->
        (program.act dir l disk).2.lookup path = (program.act dir l disk').2.lookup path := by
  cases program with
  | calls todo =>
      match l, hgood with
      | .calling (call :: rest), hgood =>
          refine ⟨rfl, fun path hpath => ?_⟩
          exact call.lookup_perform_congr (hown _ (hgood call List.mem_cons_self)) hpath
      | .calling [], _ => exact ⟨rfl, fun _ hpath => hpath⟩
      | .starting, _ => exact ⟨rfl, fun _ hpath => hpath⟩
      | .reading _ _, _ => exact ⟨rfl, fun _ hpath => hpath⟩
      | .deleting _, _ => exact ⟨rfl, fun _ hpath => hpath⟩
      | .done, _ => exact ⟨rfl, fun _ hpath => hpath⟩
  | cleanup c =>
      match l, hgood with
      | .starting, _ =>
          show (c.act dir .starting disk).1 = (c.act dir .starting disk').1 ∧ forall path, _ ->
            (c.act dir .starting disk).2.lookup path = (c.act dir .starting disk').2.lookup path
          simp only [Cleanup.act]
          split
          · exact ⟨rfl, fun _ hpath => hpath⟩
          · split
            · exact ⟨rfl, fun _ hpath => hpath⟩
            · exact ⟨rfl, fun _ hpath => hpath⟩
      | .reading (name :: rest) files, hgood =>
          refine ⟨?_, fun _ hpath => hpath⟩
          have hentry : c.entry dir disk name = c.entry dir disk' name := by
            unfold Cleanup.entry
            split
            case isTrue hwanted =>
              unfold Disk.aged
              rw [hown _ (hgood.left c rfl name List.mem_cons_self hwanted)]
            case isFalse => rfl
          show FileActivity.reading rest (files ++ c.entry dir disk name) = _
          rw [hentry]
          rfl
      | .reading [] files, _ =>
          show (c.act dir (.reading [] files) disk).1 = (c.act dir (.reading [] files) disk').1 ∧
            forall path, _ -> (c.act dir (.reading [] files) disk).2.lookup path =
              (c.act dir (.reading [] files) disk').2.lookup path
          simp only [Cleanup.act]
          split
          · exact ⟨rfl, fun _ hpath => hpath⟩
          · exact ⟨rfl, fun _ hpath => hpath⟩
      | .deleting (own :: rest), _ =>
          refine ⟨rfl, fun path hpath => ?_⟩
          show (disk.erase own).lookup path = (disk'.erase own).lookup path
          by_cases hsame : path = own
          · rw [hsame, AList.lookup_erase, AList.lookup_erase]
          · rw [AList.lookup_erase_ne hsame, AList.lookup_erase_ne hsame]
            exact hpath
      | .deleting [], _ => exact ⟨rfl, fun _ hpath => hpath⟩
      | .calling _, _ => exact ⟨rfl, fun _ hpath => hpath⟩
      | .done, _ => exact ⟨rfl, fun _ hpath => hpath⟩

end FileProgram

end Separation

/-!
## A rotation that runs alone
-/

namespace Cleanup

variable {c : Cleanup} {dir : Str} {disk : Disk}

def found (c : Cleanup) (dir : Str) (disk : Disk) : List (Int ×ₗ Str) :=
  c.order.flatMap (c.entry dir disk)

theorem found_perm (h : c.Lists dir disk) : (c.found dir disk).Perm (disk.listing dir c.pre) := by
  have hfound : c.found dir disk =
      ((c.order.filter c.wanted).map (fun name => dir ++ '/' :: name)).flatMap disk.aged := by
    rw [List.flatMap_map]
    unfold found
    induction c.order with
    | nil => rfl
    | cons name rest ih =>
        rw [List.flatMap_cons, ih]
        unfold entry
        by_cases hwanted : c.wanted name = true
        · rw [if_pos hwanted, List.filter_cons_of_pos hwanted, List.flatMap_cons]
        · rw [if_neg hwanted, List.filter_cons_of_neg hwanted]
          rfl
  have hlisting : disk.listing dir c.pre =
      (disk.keys.filter (Disk.isMatch dir c.pre)).flatMap disk.aged := by
    have haged : forall e, e ∈ disk.entries -> disk.aged e.1 = [toLex (e.2.mtime, e.1)] := by
      intro e he
      have hlookup : disk.lookup e.1 = some e.2 := AList.mem_lookup_iff.mpr he
      unfold Disk.aged
      rw [hlookup]
    unfold Disk.listing
    show _ = ((disk.entries.map Sigma.fst).filter _).flatMap _
    rw [List.filter_map, List.flatMap_map, ← List.flatMap_singleton' (List.map _ _),
      List.flatMap_map]
    apply List.flatMap_congr
    intro e he
    exact (haged e (List.mem_of_mem_filter he)).symm
  rw [hfound, hlisting]
  exact h.files.flatMap_right _

theorem oldest_found (h : c.Lists dir disk) :
    c.oldest (c.found dir disk) = disk.doomed dir c.limit c.pre := by
  have hsorted : (c.found dir disk).insertionSort (· ≤ ·) =
      (disk.listing dir c.pre).insertionSort (· ≤ ·) := by
    apply List.Perm.eq_of_pairwise' (List.pairwise_insertionSort _ _)
      (List.pairwise_insertionSort _ _)
    exact ((List.perm_insertionSort _ _).trans (found_perm h)).trans
      (List.perm_insertionSort _ _).symm
  unfold oldest Disk.doomed
  rw [hsorted, (found_perm h).length_eq]

theorem length_found_le : (c.found dir disk).length ≤ c.order.length := by
  unfold found
  induction c.order with
  | nil => exact Nat.le_refl _
  | cons name rest ih =>
      have hentry : (c.entry dir disk name).length ≤ 1 := by
        unfold entry Disk.aged
        split
        · split
          · exact Nat.zero_le _
          · exact Nat.le_refl _
        · exact Nat.zero_le _
      rw [List.flatMap_cons, List.length_append, List.length_cons]
      omega

theorem iterate_reading (rest : List Str) (files : List (Int ×ₗ Str)) :
    (fun p => c.act dir p.1 p.2)^[rest.length] (.reading rest files, disk) =
      (.reading [] (files ++ rest.flatMap (c.entry dir disk)), disk) := by
  induction rest generalizing files with
  | nil => rw [List.flatMap_nil, List.append_nil]; rfl
  | cons name rest ih =>
      rw [List.length_cons, Function.iterate_succ_apply, List.flatMap_cons, ← List.append_assoc]
      exact ih _

theorem iterate_deleting (left : List Str) (disk : Disk) :
    (fun p => c.act dir p.1 p.2)^[left.length] (.deleting left, disk) =
      (.deleting [], left.foldl (fun d path => d.erase path) disk) := by
  induction left generalizing disk with
  | nil => rfl
  | cons path rest ih =>
      rw [List.length_cons, Function.iterate_succ_apply]
      exact ih _

theorem lookup_foldl_erase (left : List Str) (disk : Disk) (path : Str) :
    (left.foldl (fun d own => d.erase own) disk).lookup path =
      if path ∈ left then none else disk.lookup path := by
  induction left generalizing disk with
  | nil => rfl
  | cons own rest ih =>
      rw [List.foldl_cons, ih]
      by_cases hsame : path = own
      · subst hsame
        rw [AList.lookup_erase, if_pos List.mem_cons_self, ite_self]
      · rw [AList.lookup_erase_ne hsame]
        simp only [List.mem_cons, hsame, false_or]

theorem exists_alone (h : c.Lists dir disk) :
    exists k disk', k ≤ 2 * c.order.length + 3 ∧
      (fun p => c.act dir p.1 p.2)^[k] (.starting, disk) = (.done, disk') ∧
        forall path, disk'.lookup path = (c.effect dir disk).lookup path := by
  by_cases hlimit : c.limit ≤ 0
  · refine ⟨1, disk, by omega, ?_, ?_⟩
    · show c.act dir .starting disk = _
      simp only [act]
      rw [if_pos hlimit]
    · intro path
      unfold effect
      rw [Disk.cleanupFiles_of_nonpos hlimit, ite_self]
  · by_cases hopens : c.opens = true
    case neg =>
      refine ⟨1, disk, by omega, ?_, ?_⟩
      · show c.act dir .starting disk = _
        simp only [act]
        rw [if_neg hlimit, if_neg hopens]
      · intro path
        unfold effect
        rw [if_neg hopens]
    case pos =>
      have hread : (fun p => c.act dir p.1 p.2)^[c.order.length + 1] (.starting, disk) =
          (.reading [] (c.found dir disk), disk) := by
        rw [Function.iterate_succ_apply]
        have hopen : c.act dir .starting disk = (.reading c.order [], disk) := by
          simp only [act]
          rw [if_neg hlimit, if_pos hopens]
        show (fun p => c.act dir p.1 p.2)^[c.order.length] (c.act dir .starting disk) = _
        rw [hopen, iterate_reading]
        rfl
      have heffect : c.effect dir disk = disk.cleanupFiles dir c.limit c.pre := by
        unfold effect
        rw [if_pos hopens]
      by_cases hfew : Int.bmod (c.found dir disk).length (2 ^ 32) ≤ c.limit
      · refine ⟨(c.order.length + 1) + 1, disk, by omega, ?_, ?_⟩
        · rw [Function.iterate_succ_apply', hread]
          show c.act dir (.reading [] (c.found dir disk)) disk = _
          simp only [act]
          rw [if_pos hfew]
        · intro path
          have hnone : disk.doomed dir c.limit c.pre = [] := by
            rw [← oldest_found h]
            unfold oldest Disk.excess
            rw [if_neg hlimit, Int.toNat_of_nonpos (by omega)]
            rfl
          rw [heffect, Disk.lookup_cleanupFiles, hnone, if_neg List.not_mem_nil]
      · have hleft : (c.oldest (c.found dir disk)).length ≤ c.order.length := by
          unfold oldest
          rw [List.length_map]
          apply (List.length_take_le' _ _).trans
          rw [List.length_insertionSort]
          exact length_found_le
        refine ⟨((c.oldest (c.found dir disk)).length + 1 + 1) + (c.order.length + 1),
          (c.oldest (c.found dir disk)).foldl (fun d path => d.erase path) disk, by omega, ?_, ?_⟩
        · rw [Function.iterate_add_apply, hread, Function.iterate_succ_apply]
          have hdelete : c.act dir (.reading [] (c.found dir disk)) disk =
              (.deleting (c.oldest (c.found dir disk)), disk) := by
            simp only [act]
            rw [if_neg hfew]
          show (fun p => c.act dir p.1 p.2)^[_ + 1] (c.act dir (.reading [] _) disk) = _
          rw [hdelete, Function.iterate_succ_apply', iterate_deleting]
          rfl
        · intro path
          rw [heffect, Disk.lookup_cleanupFiles, ← oldest_found h]
          exact lookup_foldl_erase _ _ _

end Cleanup

namespace FileProgram

variable {dir : Str} {disk : Disk}

theorem iterate_calling (todo rest : List FileCall) (disk : Disk) :
    (fun p => (FileProgram.calls todo).act dir p.1 p.2)^[rest.length] (.calling rest, disk) =
      (.calling [], rest.foldl FileCall.perform disk) := by
  induction rest generalizing disk with
  | nil => rfl
  | cons call rest ih =>
      rw [List.length_cons, Function.iterate_succ_apply]
      exact ih _

theorem exists_alone (program : FileProgram) (h : program.Answered dir disk) :
    exists k disk', k ≤ program.length ∧
      (fun p => program.act dir p.1 p.2)^[k] (program.start, disk) = (.done, disk') ∧
        forall path, disk'.lookup path = (program.effect dir disk).lookup path := by
  cases program with
  | cleanup c => exact Cleanup.exists_alone h
  | calls todo =>
      refine ⟨todo.length + 1, _, Nat.le_refl _, ?_, fun path => rfl⟩
      rw [Function.iterate_succ_apply']
      exact congrArg (fun p => (FileProgram.calls todo).act dir p.1 p.2)
        (iterate_calling todo todo disk)

theorem act_done (program : FileProgram) (dir : Str) (disk : Disk) :
    program.act dir .done disk = (.done, disk) := by
  cases program with
  | cleanup c => rfl
  | calls todo => rfl

theorem good_start (program : FileProgram) (h : program.Answered dir disk) :
    program.Good dir program.start := by
  cases program with
  | cleanup c =>
      rintro other heq
      injection heq with heq
      subst heq
      exact h.owns
  | calls todo => exact fun call hcall => ⟨call, hcall, rfl⟩

end FileProgram

/-!
## Programs in any order
-/

section Apart

variable {ι : Type*} {dir : Str} {programs : ι -> FileProgram} {region : Str -> ι}

theorem FileProgram.separate
    (hregion : forall i path, (programs i).Touches dir path -> region path = i) :
    Regions.Separate (fun i => (programs i).act dir)
      (fun (disk : Disk) (path : Str) => disk.lookup path) region
      (fun i => (programs i).Good dir) where
  keeps i l disk hgood := FileProgram.good_act hgood disk
  frame i l disk hgood path hpath :=
    FileProgram.lookup_act_of_not_touches hgood disk (fun htouch => hpath (hregion i path htouch))
  own i l disk disk' hgood hagree := by
    rcases FileProgram.act_congr hgood (fun path htouch => hagree path (hregion i path htouch)) with
      ⟨hsame, hplaces⟩
    exact ⟨hsame, fun path hpath => hplaces path (hagree path hpath)⟩

/-- Rotations, and programs that call on single files, make their system calls in any order.
When each file belongs to at most one of them, a program that had its turns is done, and its
files are as if it had run in one step on the directory as it was. -/
theorem rotations_apart [DecidableEq ι] {disk : Disk}
    (hregion : forall i path, (programs i).Touches dir path -> region path = i)
    (hanswered : forall i, (programs i).Answered dir disk) {turns : List ι} {i : ι}
    (hturns : (programs i).length ≤ turns.count i) :
    let final := runFrom (Regions.turn (fun i => (programs i).act dir))
      ⟨fun i => (programs i).start, disk⟩ turns
    final.locals i = .done ∧ forall path, region path = i ->
      final.memory.lookup path = ((programs i).effect dir disk).lookup path := by
  rcases (programs i).exists_alone (hanswered i) with ⟨k, disk', hk, hend, heffect⟩
  have halone : Regions.alone (fun i => (programs i).act dir) i (turns.count i)
      ((programs i).start, disk) = (.done, disk') := by
    apply Regions.alone_of_rest (k := k) hend
    · exact (programs i).act_done dir disk'
    · exact hk.trans hturns
  rcases (FileProgram.separate hregion).run (s := ⟨fun i => (programs i).start, disk⟩)
    (fun j => (programs j).good_start (hanswered j)) i (p := ((programs i).start, disk)) rfl
    (fun path _ => rfl) turns with ⟨hlocal, hmemory⟩
  rw [halone] at hlocal hmemory
  exact ⟨hlocal, fun path hpath => (hmemory path hpath).trans (heffect path)⟩

end Apart

def atTheSameTime : Option Bool -> FileProgram
  | some true => .cleanup
      { limit := 1, pre := PerfDiagnoser.perfFiles, opens := true,
        order := [".perf_d".toList, "perf_c_0.data".toList, "offcpu_a_0.data".toList,
          "perf_a_1.data".toList, "perf_b_1.data".toList] }
  | some false => .cleanup
      { limit := 1, pre := "offcpu".toList, opens := true,
        order := ["perf_a_1.data".toList, "offcpu_a_0.data".toList] }
  | none => .calls [.create "d/profile_e_2.data".toList { size := 0, mtime := 6 },
      .write "d/profile_e_2.data".toList { size := 9, mtime := 7 }]

def fileOwner (path : Str) : Option Bool :=
  if Disk.isMatch ['d'] PerfDiagnoser.perfFiles path then some true
  else if Disk.isMatch ['d'] "offcpu".toList path then some false
  else none

theorem rotations_apart_mixedFiles :
    let final := runFrom (Regions.turn (fun i => (atTheSameTime i).act ['d']))
      ⟨fun i => (atTheSameTime i).start, mixedFiles⟩
      (List.replicate 13 [some true, none, some false]).flatten
    final.locals (some true) = .done ∧ forall path, fileOwner path = some true ->
      final.memory.lookup path =
        (mixedFiles.cleanupFiles ['d'] 1 PerfDiagnoser.perfFiles).lookup path := by
  have howner : forall i path, (atTheSameTime i).Touches ['d'] path -> fileOwner path = i := by
    intro i path htouch
    match i, htouch with
    | some true, htouch => exact if_pos htouch
    | some false, htouch =>
        refine (if_neg ?_).trans (if_pos htouch)
        intro hperf
        rcases Disk.prefix_of_isMatch hperf with ⟨rest, rfl⟩
        rcases Disk.prefix_of_isMatch htouch with ⟨other, hother⟩
        cases hother
    | none, ⟨call, hcall, hpath⟩ =>
        have hprofile : call.path = "d/profile_e_2.data".toList := by
          rcases List.mem_cons.mp hcall with rfl | hcall
          · rfl
          · rw [List.mem_singleton.mp hcall]
            rfl
        rw [← hpath, hprofile]
        decide
  have hanswered : forall i, (atTheSameTime i).Answered ['d'] mixedFiles := by
    intro i
    match i with
    | some true => exact ⟨by decide⟩
    | some false => exact ⟨by decide⟩
    | none => trivial
  exact rotations_apart howner hanswered (i := some true) (by decide)

end Worker
end PerfMonitor
