import PerfMonitor.Foundation.Descriptors
import PerfMonitor.Foundation.Listing
import PerfMonitor.Foundation.Numeral
import PerfMonitor.Worker.Startup

/-!
# The child of a launch

Between `fork` and `execv` the child of `CmdRunner::Start` opens the output file, makes
its standard output and standard error refer to it, and closes what it inherited from the
worker.  It lists its own descriptors while it closes them.
-/

namespace PerfMonitor
namespace Worker

open Foundation

/-- `atoi` on a name that starts with a digit: capped at `LONG_MAX` and cut to 32 bits. -/
def atoi (name : Str) : Int :=
  Int.bmod (min (digitsValue (name.takeWhile isDigit)) (2 ^ 63 - 1) : Nat) (2 ^ 32)

namespace ToolChild

variable {Φ : Type}

def redirect (t : FdTable Φ) (file : Option Φ) : FdTable Φ :=
  match file.bind (fun f => t.openFile { file := f, cloexec := false }) with
  | none => t
  | some (fd, t) => ((t.dup2 fd 1).dup2 fd 2).close fd

/-- One entry of `/proc/self/fd`, of which `dfd` is the descriptor. -/
def closeEntry (dfd : Nat) (t : FdTable Φ) (name : Str) : FdTable Φ :=
  if ProcFs.isNumeric name then
    let fdno := atoi name
    if fdno > 2 ∧ fdno ≠ dfd then t.close fdno.toNat else t
  else t

/-- `/proc/self/fd` and the positions of its entries. -/
def selfFd (t : FdTable Φ) : List (Nat × Str) :=
  (0, ".".toList) :: (1, "..".toList) ::
    t.openFds.map (fun fd => (fd + 2, Nat.toDigits 10 fd))

section Child

variable (room : Nat -> Nat) (fuel : Nat)

/-- The loop over the descriptors: nothing is closed if the directory cannot be opened.
`room` says how many entries the kernel returns at a time, and there is no result if the
`fuel` is not enough for the loop. -/
def closeInherited (t : FdTable Φ) (dir : Option Φ) : Option (FdTable Φ) :=
  match dir.bind (fun d => t.openFile { file := d, cloexec := true }) with
  | none => some t
  | some (dfd, t) =>
      (Listing.drain selfFd (closeEntry dfd) room fuel t 0).map (fun t => t.close dfd)

/-- The descriptors of the child at its `execv`. -/
def descriptors (t : FdTable Φ) (file dir : Option Φ) : Option (FdTable Φ) :=
  closeInherited room fuel (redirect t file) dir

end Child

/-!
## Redirection
-/

section Redirect

variable (t : FdTable Φ)

theorem redirect_of_full (hfull : t.lowestFree = none) (file : Option Φ) :
    redirect t file = t := by
  unfold redirect
  cases file with
  | none => rfl
  | some f =>
      rw [Option.bind_some, t.openFile_of_full hfull]

/-- The descriptor that was opened is closed again, also if it is one of the two. -/
theorem get_redirect {fd : Nat} (hfree : t.lowestFree = some fd) (f : Φ) (i : Nat) :
    (redirect t (some f)).get i =
      if i = fd then none
      else if (i = 1 ∨ i = 2) ∧ i < t.limit then some { file := f, cloexec := false }
      else t.get i := by
  have hlimit := (t.lowestFree_eq_some_iff.mp hfree).right.left
  have hopened := t.get_set_self hlimit (some { file := f, cloexec := false })
  have hcopied := FdTable.get_dup2_old _ hopened 1
  unfold redirect
  rw [Option.bind_some, t.openFile_of_free hfree]
  show (FdTable.close _ fd).get i = _
  rw [FdTable.get_close]
  by_cases hi : i = fd
  · rw [if_pos hi, if_pos hi]
  · have hfd : i = 1 ∨ i = 2 -> fd ≠ i := fun _ heq => hi heq.symm
    rw [if_neg hi, if_neg hi, FdTable.get_dup2 _ hcopied, FdTable.limit_dup2,
      FdTable.get_dup2 _ hopened, FdTable.limit_set, t.get_set_ne hi]
    by_cases htwo : i = 2
    · subst htwo
      simp [hfd]
    · by_cases hone : i = 1
      · subst hone
        simp [hfd]
      · simp [htwo, hone]

theorem get_redirect_other (file : Option Φ) {i : Nat} (hi : ¬ (i = 1 ∨ i = 2)) :
    (redirect t file).get i = t.get i := by
  cases file with
  | none => rfl
  | some f =>
      cases hfree : t.lowestFree with
      | none => rw [redirect_of_full t hfree]
      | some fd =>
          rw [get_redirect t hfree, if_neg (c := _ ∧ _) (fun h => hi h.left)]
          split
          next heq => rw [heq, (t.lowestFree_eq_some_iff.mp hfree).left]
          next => rfl

theorem limit_redirect (file : Option Φ) : (redirect t file).limit = t.limit := by
  unfold redirect FdTable.openFile
  cases file with
  | none => rfl
  | some f =>
      cases t.lowestFree with
      | none => rfl
      | some fd =>
          show (((t.set fd _).dup2 fd 1).dup2 fd 2).limit = _
          rw [FdTable.limit_dup2, FdTable.limit_dup2]
          rfl

theorem lowestFree_redirect (file : Option Φ) :
    (redirect t file).lowestFree.isSome = t.lowestFree.isSome := by
  cases file with
  | none => rfl
  | some f =>
      cases hfree : t.lowestFree with
      | none => rw [redirect_of_full t hfree, hfree]
      | some fd =>
          have hlimit := (t.lowestFree_eq_some_iff.mp hfree).right.left
          refine (FdTable.lowestFree_isSome_iff _).mpr ⟨fd, ?_, ?_⟩
          · rw [limit_redirect]
            exact hlimit
          · rw [get_redirect t hfree, if_pos rfl]

end Redirect

/-!
## The loop over the descriptors
-/

section Loop

variable (dfd : Nat)

theorem atoi_toDigits {fd : Nat} (hfd : fd < 2 ^ 31) : atoi (Nat.toDigits 10 fd) = fd := by
  unfold atoi
  rw [takeWhile_toDigits, digitsValue_toDigits, Nat.min_eq_left (by omega)]
  exact Int.bmod_eq_of_le (by omega) (by omega)

theorem isNumeric_toDigits (fd : Nat) : ProcFs.isNumeric (Nat.toDigits 10 fd) = true := by
  rcases exists_toDigits_cons fd with ⟨c, rest, heq, hdigit⟩
  rw [heq]
  exact hdigit

theorem closeEntry_toDigits (t : FdTable Φ) {fd : Nat} (hfd : fd < 2 ^ 31) :
    closeEntry dfd t (Nat.toDigits 10 fd) =
      if 2 < fd ∧ fd ≠ dfd then t.close fd else t := by
  unfold closeEntry
  rw [isNumeric_toDigits, if_pos rfl, atoi_toDigits hfd]
  have hcondition : ((fd : Int) > 2 ∧ (fd : Int) ≠ (dfd : Int)) <-> (2 < fd ∧ fd ≠ dfd) := by
    omega
  simp only [hcondition, Int.toNat_natCast]

theorem mem_selfFd {t : FdTable Φ} {e : Nat × Str} (he : e ∈ selfFd t) :
    (e.1 < 2 ∧ forall t' : FdTable Φ, closeEntry dfd t' e.2 = t') ∨
      exists fd, fd ∈ t.openFds ∧ e = (fd + 2, Nat.toDigits 10 fd) := by
  rcases List.mem_cons.mp he with heq | he
  · rw [heq]
    exact Or.inl ⟨Nat.two_pos, fun _ => rfl⟩
  · rcases List.mem_cons.mp he with heq | he
    · rw [heq]
      exact Or.inl ⟨Nat.one_lt_two, fun _ => rfl⟩
    · rcases List.mem_map.mp he with ⟨fd, hfd, heq⟩
      exact Or.inr ⟨fd, hfd, heq.symm⟩

theorem entriesFrom_close (t : FdTable Φ) {fd pos : Nat} (hpos : fd + 2 < pos) :
    Listing.entriesFrom selfFd (t.close fd) pos = Listing.entriesFrom selfFd t pos := by
  have hfds : ((t.close fd).openFds.map (fun fd => (fd + 2, Nat.toDigits 10 fd))).filter
        (fun e => decide (pos ≤ e.1)) =
      (t.openFds.map (fun fd => (fd + 2, Nat.toDigits 10 fd))).filter
        (fun e => decide (pos ≤ e.1)) := by
    rw [List.filter_map, List.filter_map]
    congr 1
    unfold FdTable.openFds
    rw [List.filter_filter, List.filter_filter]
    apply List.filter_congr
    intro i _hi
    show (decide (pos ≤ i + 2) && ((t.close fd).get i).isSome) = _
    rw [FdTable.get_close]
    by_cases hi : i = fd
    · rw [decide_eq_false (by omega)]
      simp [hi]
      omega
    · rw [if_neg hi]
      rfl
  unfold Listing.entriesFrom selfFd
  rw [List.filter_cons, List.filter_cons, List.filter_cons, List.filter_cons, hfds]

theorem stable_selfFd (limit : Nat) :
    Listing.Stable (selfFd (Φ := Φ)) (closeEntry dfd) (fun t => t.limit = limit) (limit + 2) := by
  constructor
  · intro t _ht
    unfold selfFd
    rw [List.pairwise_cons, List.pairwise_cons, List.pairwise_map]
    refine ⟨?_, ?_, t.openFds_sorted.imp (fun h => Nat.add_lt_add_right h 2)⟩
    · intro e he
      rcases List.mem_cons.mp he with heq | he
      · rw [heq]
        exact Nat.one_pos
      · rcases List.mem_map.mp he with ⟨fd, _, heq⟩
        rw [← heq]
        exact Nat.succ_pos _
    · intro e he
      rcases List.mem_map.mp he with ⟨fd, _, heq⟩
      rw [← heq]
      exact Nat.succ_lt_succ (Nat.succ_pos fd)
  · intro t ht e he
    rcases mem_selfFd dfd he with ⟨hdots, _⟩ | ⟨fd, hfd, heq⟩
    · exact Nat.lt_of_lt_of_le hdots (Nat.le_add_left 2 limit)
    · rw [heq, ← ht]
      exact Nat.add_lt_add_right (t.lt_limit (t.mem_openFds.mp hfd)) 2
  · intro t ht e he
    rcases mem_selfFd dfd he with ⟨_, hnothing⟩ | ⟨fd, hfd, heq⟩
    · rw [hnothing]
      exact ht
    · have hint := Nat.lt_of_lt_of_le (t.lt_limit (t.mem_openFds.mp hfd)) t.limit_le
      rw [heq, closeEntry_toDigits dfd t hint]
      split
      · exact ht
      · exact ht
  · intro t ht e he pos hpos
    rcases mem_selfFd dfd he with ⟨_, hnothing⟩ | ⟨fd, hfd, heq⟩
    · rw [hnothing]
    · rw [heq] at hpos ⊢
      have hint := Nat.lt_of_lt_of_le (t.lt_limit (t.mem_openFds.mp hfd)) t.limit_le
      rw [closeEntry_toDigits dfd t hint]
      split
      · exact entriesFrom_close t hpos
      · rfl

theorem get_closeEntry (t : FdTable Φ) {fd : Nat} (hfd : fd < 2 ^ 31) (i : Nat) :
    (closeEntry dfd t (Nat.toDigits 10 fd)).get i =
      if i = fd ∧ 2 < i ∧ i ≠ dfd then none else t.get i := by
  rw [closeEntry_toDigits dfd t hfd]
  by_cases hi : i = fd
  · subst hi
    by_cases hcloses : 2 < i ∧ i ≠ dfd
    · rw [if_pos hcloses, if_pos ⟨rfl, hcloses⟩, FdTable.get_close, if_pos rfl]
    · rw [if_neg hcloses, if_neg (fun h => hcloses h.right)]
  · by_cases hcloses : 2 < fd ∧ fd ≠ dfd
    · rw [if_pos hcloses, FdTable.get_close, if_neg hi, if_neg (fun h => hi h.left)]
    · rw [if_neg hcloses, if_neg (fun h => hi h.left)]

theorem get_visitAll_fds (fds : List Nat) (t : FdTable Φ)
    (hint : forall fd, fd ∈ fds -> fd < 2 ^ 31) (i : Nat) :
    (Listing.visitAll (closeEntry dfd) t
      (fds.map (fun fd => (fd + 2, Nat.toDigits 10 fd)))).get i =
        if i ∈ fds ∧ 2 < i ∧ i ≠ dfd then none else t.get i := by
  induction fds generalizing t with
  | nil =>
      rw [if_neg (fun h => List.not_mem_nil h.left)]
      rfl
  | cons fd rest ih =>
      show (Listing.visitAll (closeEntry dfd) (closeEntry dfd t (Nat.toDigits 10 fd)) _).get i = _
      rw [ih _ (fun fd' hfd' => hint fd' (List.mem_cons_of_mem _ hfd')),
        get_closeEntry dfd t (hint fd List.mem_cons_self)]
      by_cases hcloses : 2 < i ∧ i ≠ dfd
      · by_cases hi : i = fd
        · have hmem : i ∈ fd :: rest := by
            rw [hi]
            exact List.mem_cons_self
          rw [if_pos (c := i = fd ∧ _) ⟨hi, hcloses⟩, ite_self, if_pos ⟨hmem, hcloses⟩]
        · rw [if_neg (c := i = fd ∧ _) (fun h => hi h.left)]
          simp only [List.mem_cons, hi, false_or]
      · rw [if_neg (fun h => hcloses h.right), if_neg (fun h => hcloses h.right),
          if_neg (fun h => hcloses h.right)]

/-- Everything that was listed is closed, except for the standard descriptors and that of
the directory. -/
theorem get_visitAll (t : FdTable Φ) (i : Nat) :
    (Listing.visitAll (closeEntry dfd) t (selfFd t)).get i =
      if 2 < i ∧ i ≠ dfd then none else t.get i := by
  have hint : forall fd, fd ∈ t.openFds -> fd < 2 ^ 31 := fun fd hfd =>
    Nat.lt_of_lt_of_le (t.lt_limit (t.mem_openFds.mp hfd)) t.limit_le
  show (Listing.visitAll (closeEntry dfd) t
    (t.openFds.map (fun fd => (fd + 2, Nat.toDigits 10 fd)))).get i = _
  rw [get_visitAll_fds dfd t.openFds t hint]
  by_cases hopen : t.get i = none
  · rw [hopen, ite_self, ite_self]
  · simp only [t.mem_openFds.mpr hopen, true_and]

end Loop

/-!
## The child at its `execv`
-/

section Child

variable (room : Nat -> Nat) (t : FdTable Φ)

theorem closeInherited_of_full {dir : Option Φ} (h : dir = none ∨ t.lowestFree = none)
    (fuel : Nat) : closeInherited room fuel t dir = some t := by
  unfold closeInherited
  cases dir with
  | none => rfl
  | some d =>
      have hfull := h.resolve_left (Option.some_ne_none d)
      rw [Option.bind_some, t.openFile_of_full hfull]

theorem closeInherited_of_free {dfd : Nat} (hfree : t.lowestFree = some dfd) (d : Φ) :
    exists u, (forall fuel, t.limit + 2 < fuel -> closeInherited room fuel t (some d) = some u) ∧
      forall i, u.get i = if 2 < i then none else t.get i := by
  rcases t.lowestFree_eq_some_iff.mp hfree with ⟨hclosed, _⟩
  let opened := t.set dfd (some { file := d, cloexec := true })
  have hstart : Listing.entriesFrom selfFd opened 0 = selfFd opened :=
    List.filter_eq_self.mpr (fun e _ => decide_eq_true (Nat.zero_le e.1))
  refine ⟨FdTable.close (Listing.visitAll (closeEntry dfd) opened (selfFd opened)) dfd, ?_, ?_⟩
  · intro fuel hfuel
    unfold closeInherited
    rw [Option.bind_some, t.openFile_of_free hfree]
    show (Listing.drain selfFd (closeEntry dfd) room fuel opened 0).map _ = _
    rw [(stable_selfFd dfd t.limit).drain_eq room (t.limit_set dfd _) hfuel, hstart]
    rfl
  · intro i
    rw [FdTable.get_close, get_visitAll]
    by_cases hi : i = dfd
    · rw [if_pos hi, hi, hclosed, ite_self]
    · rw [if_neg hi, t.get_set_ne hi]
      simp only [hi, ne_eq, not_false_eq_true, and_true]

/-- Every descriptor of the child: what the redirection made of it, but nothing above the
standard ones if the directory could be opened. -/
theorem get_descriptors (file dir : Option Φ) :
    exists u, (forall fuel, t.limit + 2 < fuel -> descriptors room fuel t file dir = some u) ∧
      forall i, u.get i =
        if 2 < i ∧ dir.isSome = true ∧ t.lowestFree.isSome = true then none
        else (redirect t file).get i := by
  have hlimit := limit_redirect t file
  have hsome := lowestFree_redirect t file
  by_cases hopens : dir.isSome = true ∧ t.lowestFree.isSome = true
  · rcases Option.isSome_iff_exists.mp hopens.left with ⟨d, hd⟩
    rcases Option.isSome_iff_exists.mp (hsome.trans hopens.right) with ⟨dfd, hfree⟩
    rcases closeInherited_of_free room _ hfree d with ⟨u, hu, hget⟩
    rw [hlimit] at hu
    refine ⟨u, ?_, ?_⟩
    · rw [hd]
      exact hu
    · intro i
      rw [hget]
      simp only [hopens, and_true]
  · have hfull : dir = none ∨ (redirect t file).lowestFree = none := by
      rw [← hsome, Decidable.not_and_iff_or_not] at hopens
      exact hopens.imp Option.not_isSome_iff_eq_none.mp Option.not_isSome_iff_eq_none.mp
    refine ⟨redirect t file, fun fuel _ => closeInherited_of_full room _ hfull fuel, ?_⟩
    intro i
    rw [if_neg (fun h => hopens h.right)]

theorem inherited_congr {u : FdTable Φ} {i : Nat} (h : u.get i = t.get i) :
    u.inherited i = t.inherited i := by
  unfold FdTable.inherited
  rw [h]

theorem inherited_of_none {u : FdTable Φ} {i : Nat} (h : u.get i = none) :
    u.inherited i = none := by
  unfold FdTable.inherited
  rw [h]

section Outputs

variable {t : FdTable Φ} {u : FdTable Φ} {file : Option Φ}
  (hlow : forall i, i ≤ 2 -> u.get i = (redirect t file).get i)

include hlow

theorem outputs_kept (hnothing : file = none ∨ t.lowestFree = none) :
    u.inherited 1 = t.inherited 1 ∧ u.inherited 2 = t.inherited 2 := by
  have hkept : redirect t file = t := by
    rcases hnothing with hfile | hfull
    · rw [hfile]
      rfl
    · exact redirect_of_full t hfull file
  rw [hkept] at hlow
  exact ⟨inherited_congr t (hlow 1 (by decide)), inherited_congr t (hlow 2 (by decide))⟩

theorem output_redirected {f : Φ} {fd : Nat} (hfile : file = some f)
    (hfree : t.lowestFree = some fd) {i : Nat} (hi : i = 1 ∨ i = 2) :
    u.inherited i = if i = fd ∨ t.limit ≤ i then none else some f := by
  have hget := (hlow i (by omega)).trans (hfile ▸ get_redirect t hfree f i)
  by_cases hclosed : i = fd ∨ t.limit ≤ i
  · rw [if_pos hclosed]
    apply inherited_of_none
    rw [hget]
    rcases hclosed with heq | hle
    · rw [if_pos heq]
    · rw [if_neg (c := _ ∧ _) (fun h => Nat.not_lt.mpr hle h.right), t.bounded i hle, ite_self]
  · rw [not_or, Nat.not_le] at hclosed
    rw [if_neg hclosed.left, if_pos ⟨hi, hclosed.right⟩] at hget
    rw [if_neg (by omega)]
    unfold FdTable.inherited
    rw [hget]
    rfl

end Outputs

/-- What the tool starts with, whatever the worker had open: its standard input is that of
the worker; above the standard descriptors it has nothing exactly when its own descriptors
could be listed or the worker had nothing for it; and its outputs go to the file, except
for one that took the lowest free descriptor, which is closed. -/
theorem descriptors_at_exec (file dir : Option Φ) :
    exists u, (forall fuel, t.limit + 2 < fuel -> descriptors room fuel t file dir = some u) ∧
      u.inherited 0 = t.inherited 0 ∧
      ((forall fd, 2 < fd -> u.inherited fd = none) <->
        (dir.isSome = true ∧ t.lowestFree.isSome = true) ∨
          forall fd, 2 < fd -> t.inherited fd = none) ∧
      (file = none ∨ t.lowestFree = none ->
        u.inherited 1 = t.inherited 1 ∧ u.inherited 2 = t.inherited 2) ∧
      forall f fd, file = some f -> t.lowestFree = some fd ->
        forall i, i = 1 ∨ i = 2 ->
          u.inherited i = if i = fd ∨ t.limit ≤ i then none else some f := by
  rcases get_descriptors room t file dir with ⟨u, hu, hget⟩
  have hlow : forall i, i ≤ 2 -> u.get i = (redirect t file).get i := by
    intro i hi
    rw [hget, if_neg (fun h => Nat.not_lt.mpr hi h.left)]
  refine ⟨u, hu, ?_, ?_, outputs_kept hlow,
    fun f fd hfile hfree i hi => output_redirected hlow hfile hfree hi⟩
  · apply inherited_congr
    rw [hlow 0 (Nat.zero_le 2), get_redirect_other t file (by decide)]
  · by_cases hopens : dir.isSome = true ∧ t.lowestFree.isSome = true
    · refine iff_of_true (fun fd hfd => inherited_of_none ?_) (Or.inl hopens)
      rw [hget, if_pos ⟨hfd, hopens⟩]
    · have hsame : forall fd, 2 < fd -> u.inherited fd = t.inherited fd := by
        intro fd hfd
        apply inherited_congr
        rw [hget, if_neg (fun h => hopens h.right), get_redirect_other t file (by omega)]
      rw [or_iff_right hopens]
      exact forall₂_congr (fun fd hfd => by rw [hsame fd hfd])

end Child

end ToolChild

end Worker
end PerfMonitor
