import Mathlib.Data.List.Infix

/-!
# Directories along a path

A tree of directories and files without links, and how a path is gone through in it.
`mkdir` makes the last directory of a path.  Called on every prefix of a path in turn it
makes all directories of the path that can be made, and calling it again changes nothing.
Which entries may be created is a property of the place.
-/

namespace PerfMonitor
namespace Foundation

inductive NodeKind where
  | dir
  | file
deriving DecidableEq, Repr

abbrev NodePath := List (List Char)

structure FileTree where
  node : NodePath -> Option NodeKind

namespace FileTree

def insert (t : FileTree) (place : NodePath) (kind : NodeKind) : FileTree where
  node := fun q => if q = place then some kind else t.node q

def isDot (name : List Char) : Bool :=
  name == ".".toList

def isDotDot (name : List Char) : Bool :=
  name == "..".toList

def enter (t : FileTree) (dir : NodePath) (name : List Char) : Option NodePath :=
  if isDot name then some dir
  else if isDotDot name then some dir.dropLast
  else if t.node (dir ++ [name]) = some .dir then some (dir ++ [name])
  else none

def walk (t : FileTree) (dir : NodePath) : List (List Char) -> Option NodePath
  | [] => some dir
  | name :: rest => (t.enter dir name).bind (fun next => t.walk next rest)

section Create

variable (mayCreate : NodePath -> Bool)

def makeIn (t : FileTree) (dir : NodePath) (name : List Char) : FileTree :=
  if isDot name || isDotDot name then t
  else if t.node (dir ++ [name]) = none ∧ mayCreate (dir ++ [name]) = true then
    t.insert (dir ++ [name]) .dir
  else t

/-- `open` of a file for writing, which is created if nothing is there. -/
def openIn (mayWrite : NodePath -> Bool) (t : FileTree) (dir : NodePath) (name : List Char) :
    Option (FileTree × NodePath) :=
  if isDot name || isDotDot name then none
  else
    match t.node (dir ++ [name]) with
    | some .dir => none
    | some .file => if mayWrite (dir ++ [name]) then some (t, dir ++ [name]) else none
    | none =>
        if mayCreate (dir ++ [name]) then some (t.insert (dir ++ [name]) .file, dir ++ [name])
        else none

/-- `open` along a path that does not end with a slash. -/
def openFor (mayWrite : NodePath -> Bool) (base : NodePath) (t : FileTree)
    (names : List (List Char)) : Option (FileTree × NodePath) :=
  match names.getLast? with
  | none => none
  | some name => (t.walk base names.dropLast).bind (fun dir => t.openIn mayCreate mayWrite dir name)

def remove (t : FileTree) (place : NodePath) : FileTree where
  node := fun q => if q = place ∧ t.node q = some .file then none else t.node q

/-- `unlink` along a path that does not end with a slash. -/
def unlinkAt (base : NodePath) (t : FileTree) (names : List (List Char)) : FileTree :=
  match names.getLast? with
  | none => t
  | some name =>
      match t.walk base names.dropLast with
      | none => t
      | some dir => t.remove (dir ++ [name])

/-- `mkdir`: a failing call changes nothing. -/
def mkdir (base : NodePath) (t : FileTree) (names : List (List Char)) : FileTree :=
  match names.getLast? with
  | none => t
  | some name =>
      match t.walk base names.dropLast with
      | none => t
      | some dir => t.makeIn mayCreate dir name

def advance : FileTree × Option NodePath -> List Char -> FileTree × Option NodePath
  | (t, none), _ => (t, none)
  | (t, some dir), name =>
      (t.makeIn mayCreate dir name, (t.makeIn mayCreate dir name).enter dir name)

def makeAll (base : NodePath) (t : FileTree) (names : List (List Char)) :
    FileTree × Option NodePath :=
  names.foldl (advance mayCreate) (t, some base)

def Makeable (t : FileTree) : NodePath -> List (List Char) -> Prop
  | _, [] => True
  | dir, name :: rest =>
      if isDot name then Makeable t dir rest
      else if isDotDot name then Makeable t dir.dropLast rest
      else
        (t.node (dir ++ [name]) = some .dir ∨
          (t.node (dir ++ [name]) = none ∧ mayCreate (dir ++ [name]) = true)) ∧
        Makeable t (dir ++ [name]) rest

def Extends (t t' : FileTree) : Prop :=
  forall q, t'.node q = t.node q ∨
    (t.node q = none ∧ mayCreate q = true ∧ t'.node q = some .dir)

variable {mayCreate}

variable (mayCreate) in
theorem makeIn_cases (t : FileTree) (dir : NodePath) (name : List Char) :
    t.makeIn mayCreate dir name = t ∨
      (isDot name = false ∧ isDotDot name = false ∧ t.node (dir ++ [name]) = none ∧
        mayCreate (dir ++ [name]) = true ∧
        t.makeIn mayCreate dir name = t.insert (dir ++ [name]) .dir) := by
  unfold makeIn
  split
  · exact Or.inl rfl
  next hname =>
    rw [Bool.or_eq_true, not_or, Bool.not_eq_true, Bool.not_eq_true] at hname
    split
    next hmade => exact Or.inr ⟨hname.left, hname.right, hmade.left, hmade.right, rfl⟩
    next => exact Or.inl rfl

theorem node_insert_self (t : FileTree) (place : NodePath) (kind : NodeKind) :
    (t.insert place kind).node place = some kind :=
  if_pos rfl

theorem node_insert_ne (t : FileTree) {q place : NodePath} (hne : q ≠ place) (kind : NodeKind) :
    (t.insert place kind).node q = t.node q :=
  if_neg hne

theorem extends_refl (t : FileTree) : Extends mayCreate t t :=
  fun _ => Or.inl rfl

variable (mayCreate) in
theorem extends_makeIn (t : FileTree) (dir : NodePath) (name : List Char) :
    Extends mayCreate t (t.makeIn mayCreate dir name) := by
  rcases makeIn_cases mayCreate t dir name with heq | ⟨_, _, hnone, hmay, heq⟩
  · rw [heq]
    exact extends_refl t
  · intro q
    rw [heq]
    by_cases hq : q = dir ++ [name]
    · rw [hq]
      exact Or.inr ⟨hnone, hmay, node_insert_self t _ _⟩
    · exact Or.inl (node_insert_ne t hq _)

theorem Extends.trans {t t' t'' : FileTree} (h : Extends mayCreate t t')
    (h' : Extends mayCreate t' t'') : Extends mayCreate t t'' := by
  intro q
  rcases h' q with heq | ⟨hnone, hmay, hdir⟩
  · rw [heq]
    exact h q
  · rcases h q with heq | ⟨_, _, hdir'⟩
    · rw [heq] at hnone
      exact Or.inr ⟨hnone, hmay, hdir⟩
    · rw [hdir'] at hnone
      cases hnone

theorem Extends.dir {t t' : FileTree} (h : Extends mayCreate t t') {q : NodePath}
    (hq : t.node q = some .dir) : t'.node q = some .dir := by
  rcases h q with heq | ⟨hnone, _, _⟩
  · rw [heq, hq]
  · rw [hq] at hnone
    cases hnone

theorem Extends.enter {t t' : FileTree} (h : Extends mayCreate t t') {dir next : NodePath}
    {name : List Char} (henter : t.enter dir name = some next) :
    t'.enter dir name = some next := by
  unfold FileTree.enter at henter ⊢
  split
  next hdot => rwa [if_pos hdot] at henter
  next hdot =>
    rw [if_neg hdot] at henter
    split
    next hdotDot => rwa [if_pos hdotDot] at henter
    next hdotDot =>
      rw [if_neg hdotDot] at henter
      split at henter
      next hdir =>
        rw [if_pos (h.dir hdir)]
        exact henter
      next => cases henter

theorem Extends.walk {t t' : FileTree} (h : Extends mayCreate t t') {names : List (List Char)}
    {dir next : NodePath} (hwalk : t.walk dir names = some next) :
    t'.walk dir names = some next := by
  induction names generalizing dir with
  | nil => exact hwalk
  | cons name rest ih =>
      rcases Option.bind_eq_some_iff.mp hwalk with ⟨middle, henter, hrest⟩
      show (t'.enter dir name).bind _ = some next
      rw [h.enter henter]
      exact ih hrest

/-!
## Making all directories
-/

theorem walk_concat (t : FileTree) (dir : NodePath) (names : List (List Char)) (name : List Char) :
    t.walk dir (names ++ [name]) = (t.walk dir names).bind (fun next => t.enter next name) := by
  induction names generalizing dir with
  | nil => exact Option.bind_fun_some (t.enter dir name)
  | cons first rest ih =>
      show (t.enter dir first).bind (fun next => t.walk next (rest ++ [name])) = _
      rw [funext (fun next => ih next)]
      exact (Option.bind_assoc _ _ _).symm

theorem makeAll_concat (base : NodePath) (t : FileTree) (names : List (List Char))
    (name : List Char) :
    makeAll mayCreate base t (names ++ [name]) =
      advance mayCreate (makeAll mayCreate base t names) name := by
  unfold makeAll
  rw [List.foldl_append]
  rfl

theorem mkdir_concat (base : NodePath) (t : FileTree) (names : List (List Char))
    (name : List Char) :
    mkdir mayCreate base t (names ++ [name]) =
      match t.walk base names with
      | none => t
      | some dir => t.makeIn mayCreate dir name := by
  unfold mkdir
  rw [List.getLast?_concat, List.dropLast_concat]

theorem makeIn_of_enter {t : FileTree} {dir next : NodePath} {name : List Char}
    (h : t.enter dir name = some next) : t.makeIn mayCreate dir name = t := by
  rcases makeIn_cases mayCreate t dir name with heq | ⟨hdot, hdotDot, hnone, _, _⟩
  · exact heq
  · unfold FileTree.enter at h
    rw [hdot, hdotDot, if_neg Bool.false_ne_true, if_neg Bool.false_ne_true, hnone,
      if_neg (by simp)] at h
    cases h

theorem mkdir_of_walk {t : FileTree} {base next : NodePath} {names : List (List Char)}
    (h : t.walk base names = some next) : mkdir mayCreate base t names = t := by
  rcases List.eq_nil_or_concat names with hnil | ⟨init, last, hconcat⟩
  · rw [hnil]
    rfl
  · rw [List.concat_eq_append] at hconcat
    rw [hconcat, walk_concat] at h
    rcases Option.bind_eq_some_iff.mp h with ⟨dir, hwalk, henter⟩
    rw [hconcat, mkdir_concat, hwalk]
    exact makeIn_of_enter henter

theorem makeIn_makeIn (t : FileTree) (dir : NodePath) (name : List Char) :
    (t.makeIn mayCreate dir name).makeIn mayCreate dir name = t.makeIn mayCreate dir name := by
  rcases makeIn_cases mayCreate t dir name with
    heq | ⟨hdot, hdotDot, _, _, heq⟩
  · rw [heq, heq]
  · refine makeIn_of_enter (show _ = some (dir ++ [name]) from ?_)
    unfold FileTree.enter
    rw [heq, hdot, hdotDot, if_neg Bool.false_ne_true, if_neg Bool.false_ne_true,
      if_pos (node_insert_self t _ _)]

variable (mayCreate) in
theorem extends_advance (s : FileTree × Option NodePath) (name : List Char) :
    Extends mayCreate s.1 (advance mayCreate s name).1 := by
  rcases s with ⟨t, _ | dir⟩
  · exact extends_refl t
  · exact extends_makeIn mayCreate t dir name

theorem extends_foldl (s : FileTree × Option NodePath) (names : List (List Char)) :
    Extends mayCreate s.1 (names.foldl (advance mayCreate) s).1 := by
  induction names generalizing s with
  | nil => exact extends_refl s.1
  | cons name rest ih =>
      exact (extends_advance mayCreate s name).trans (ih (advance mayCreate s name))

theorem extends_makeAll (base : NodePath) (t : FileTree) (names : List (List Char)) :
    Extends mayCreate t (makeAll mayCreate base t names).1 :=
  extends_foldl (t, some base) names

variable (mayCreate) in
theorem walk_makeAll (base : NodePath) (t : FileTree) (names : List (List Char)) :
    (makeAll mayCreate base t names).1.walk base names = (makeAll mayCreate base t names).2 := by
  induction names using List.reverseRecOn with
  | nil => rfl
  | append_singleton names name ih =>
      rw [makeAll_concat, walk_concat]
      cases hreached : makeAll mayCreate base t names with
      | mk t' reached =>
          rw [hreached] at ih
          cases reached with
          | none =>
              show (t'.walk base names).bind _ = none
              rw [ih]
              rfl
          | some dir =>
              have hwalk := (extends_makeIn mayCreate t' dir name).walk ih
              show ((t'.makeIn mayCreate dir name).walk base names).bind _ = _
              rw [hwalk]
              rfl

theorem mkdir_makeAll (base : NodePath) (t : FileTree) (names : List (List Char))
    (name : List Char) :
    mkdir mayCreate base (makeAll mayCreate base t names).1 (names ++ [name]) =
      (makeAll mayCreate base t (names ++ [name])).1 := by
  rw [mkdir_concat, walk_makeAll mayCreate, makeAll_concat]
  cases makeAll mayCreate base t names with
  | mk t' reached =>
      cases reached with
      | none => rfl
      | some dir => rfl

variable (mayCreate) in
theorem mkdir_again (base : NodePath) (t : FileTree) (names : List (List Char)) :
    mkdir mayCreate base (makeAll mayCreate base t names).1 names =
      (makeAll mayCreate base t names).1 := by
  rcases List.eq_nil_or_concat names with hnil | ⟨init, last, hconcat⟩
  · rw [hnil]
    rfl
  · rw [List.concat_eq_append] at hconcat
    rw [hconcat]
    have hwalk := walk_makeAll mayCreate base t init
    rw [mkdir_concat, makeAll_concat]
    cases hreached : makeAll mayCreate base t init with
    | mk t' reached =>
        rw [hreached] at hwalk
        cases reached with
        | none =>
            show (match t'.walk base init with
              | none => t'
              | some dir => t'.makeIn mayCreate dir last) = t'
            rw [hwalk]
        | some dir =>
            have hagain := (extends_makeIn mayCreate t' dir last).walk hwalk
            show (match (t'.makeIn mayCreate dir last).walk base init with
              | none => t'.makeIn mayCreate dir last
              | some next => (t'.makeIn mayCreate dir last).makeIn mayCreate next last) = _
            rw [hagain]
            exact makeIn_makeIn t' dir last

theorem walk_of_made {base : NodePath} {t : FileTree} {names : List (List Char)} {q : NodePath}
    (hq : (makeAll mayCreate base t names).1.node q ≠ t.node q) :
    exists front, front <+: names ∧
      (makeAll mayCreate base t names).1.walk base front = some q := by
  induction names using List.reverseRecOn with
  | nil => exact absurd rfl hq
  | append_singleton names name ih =>
      have hextends := extends_advance mayCreate (makeAll mayCreate base t names) name
      by_cases hbefore : (makeAll mayCreate base t names).1.node q = t.node q
      · have hwalk := walk_makeAll mayCreate base t (names ++ [name])
        rw [← hbefore] at hq
        rw [makeAll_concat] at hq hwalk ⊢
        refine ⟨names ++ [name], List.prefix_rfl, hwalk.trans ?_⟩
        cases hreached : makeAll mayCreate base t names with
        | mk t' reached =>
            rw [hreached] at hq
            cases reached with
            | none => exact absurd rfl hq
            | some dir =>
                rcases makeIn_cases mayCreate t' dir name with
                  heq | ⟨hdot, hdotDot, _, _, heq⟩
                · exact absurd (congrArg (fun tree => tree.node q) heq) hq
                · have hplace : q = dir ++ [name] := by
                    by_contra hne
                    apply hq
                    show (t'.makeIn mayCreate dir name).node q = t'.node q
                    rw [heq, node_insert_ne t' hne]
                  show (t'.makeIn mayCreate dir name).enter dir name = some q
                  unfold FileTree.enter
                  rw [heq, hdot, hdotDot, if_neg Bool.false_ne_true, if_neg Bool.false_ne_true,
                    if_pos (node_insert_self t' _ _), hplace]
      · rcases ih hbefore with ⟨front, hfront, hwalk⟩
        rw [makeAll_concat]
        exact ⟨front, hfront.trans (List.prefix_append _ _), hextends.walk hwalk⟩

theorem foldl_advance_none (t : FileTree) (names : List (List Char)) :
    names.foldl (advance mayCreate) (t, none) = (t, none) := by
  induction names with
  | nil => rfl
  | cons name rest ih => exact ih

theorem mkdir_front (base : NodePath) (t : FileTree) (front rest : List (List Char)) :
    mkdir mayCreate base (makeAll mayCreate base t (front ++ rest)).1 front =
      (makeAll mayCreate base t (front ++ rest)).1 := by
  have hwalk := walk_makeAll mayCreate base t front
  have hagain := mkdir_again mayCreate base t front
  have hsplit : makeAll mayCreate base t (front ++ rest) =
      rest.foldl (advance mayCreate) (makeAll mayCreate base t front) :=
    List.foldl_append
  rw [hsplit]
  cases hreached : makeAll mayCreate base t front with
  | mk t' reached =>
      rw [hreached] at hwalk hagain
      cases reached with
      | none =>
          rw [foldl_advance_none]
          exact hagain
      | some dir =>
          exact mkdir_of_walk ((extends_foldl (t', some dir) rest).walk hwalk)

theorem makeAll_again (base : NodePath) (t : FileTree) (names : List (List Char)) :
    (makeAll mayCreate base (makeAll mayCreate base t names).1 names).1 =
      (makeAll mayCreate base t names).1 := by
  have hfront : forall front rest, front ++ rest = names ->
      (makeAll mayCreate base (makeAll mayCreate base t names).1 front).1 =
        (makeAll mayCreate base t names).1 := by
    intro front
    induction front using List.reverseRecOn with
    | nil => exact fun _ _ => rfl
    | append_singleton front name ih =>
        intro rest hnames
        have hbefore := ih (name :: rest) (by rw [← hnames, List.append_assoc]; rfl)
        rw [← mkdir_makeAll, hbefore, ← hnames]
        exact mkdir_front base t (front ++ [name]) rest
  exact hfront names [] (List.append_nil names)

theorem makeAll_cons (base : NodePath) (t : FileTree) (name : List Char)
    (rest : List (List Char)) :
    (makeAll mayCreate base t (name :: rest)).2 =
      ((t.makeIn mayCreate base name).enter base name).bind (fun next =>
        (makeAll mayCreate next (t.makeIn mayCreate base name) rest).2) := by
  show (rest.foldl (advance mayCreate) (t.makeIn mayCreate base name,
    (t.makeIn mayCreate base name).enter base name)).2 = _
  cases (t.makeIn mayCreate base name).enter base name with
  | none => rw [foldl_advance_none, Option.bind_none]
  | some next => rfl

theorem enter_makeIn {t t' : FileTree} (h : Extends mayCreate t t') (dir : NodePath)
    {name : List Char} (hdot : isDot name = false) (hdotDot : isDotDot name = false) :
    (t'.makeIn mayCreate dir name).enter dir name =
      if t.node (dir ++ [name]) = some .dir ∨
          (t.node (dir ++ [name]) = none ∧ mayCreate (dir ++ [name]) = true) then
        some (dir ++ [name])
      else none := by
  have henter : forall tree : FileTree, tree.enter dir name =
      if tree.node (dir ++ [name]) = some .dir then some (dir ++ [name]) else none := by
    intro tree
    unfold FileTree.enter
    rw [hdot, hdotDot, if_neg Bool.false_ne_true, if_neg Bool.false_ne_true]
  rw [henter]
  by_cases hdir : t'.node (dir ++ [name]) = some .dir
  · have hthere := (extends_makeIn mayCreate t' dir name).dir hdir
    rw [if_pos hthere, if_pos]
    rcases h (dir ++ [name]) with heq | ⟨hnone, hmay, _⟩
    · exact Or.inl (heq.symm.trans hdir)
    · exact Or.inr ⟨hnone, hmay⟩
  · have hsame : t'.node (dir ++ [name]) = t.node (dir ++ [name]) := by
      rcases h (dir ++ [name]) with heq | ⟨_, _, hmade⟩
      · exact heq
      · exact absurd hmade hdir
    have hmake : (t'.makeIn mayCreate dir name).node (dir ++ [name]) = some .dir <->
        t'.node (dir ++ [name]) = none ∧ mayCreate (dir ++ [name]) = true := by
      unfold makeIn
      rw [hdot, hdotDot, Bool.or_false, if_neg Bool.false_ne_true]
      split
      next hmade => exact iff_of_true (node_insert_self t' _ _) hmade
      next hmade => exact iff_of_false hdir hmade
    rw [hsame] at hdir hmake
    simp only [hmake, hdir, false_or]

/-- Directories that were made before do not matter. -/
theorem makeAll_isSome_iff {t : FileTree} (names : List (List Char)) {base : NodePath}
    {t' : FileTree} (h : Extends mayCreate t t') :
    (makeAll mayCreate base t' names).2.isSome = true <-> Makeable mayCreate t base names := by
  induction names generalizing base t' with
  | nil => exact iff_of_true rfl trivial
  | cons name rest ih =>
      have hnext := h.trans (extends_makeIn mayCreate t' base name)
      rw [makeAll_cons]
      unfold Makeable
      cases hdot : isDot name with
      | true =>
          have hstays : t'.makeIn mayCreate base name = t' := by
            unfold makeIn
            rw [hdot, Bool.true_or, if_pos rfl]
          rw [if_pos rfl, hstays]
          unfold FileTree.enter
          rw [if_pos hdot, Option.bind_some]
          exact ih h
      | false =>
          rw [if_neg Bool.false_ne_true]
          cases hdotDot : isDotDot name with
          | true =>
              have hstays : t'.makeIn mayCreate base name = t' := by
                unfold makeIn
                rw [hdotDot, Bool.or_true, if_pos rfl]
              rw [if_pos rfl, hstays]
              unfold FileTree.enter
              rw [hdot, if_neg Bool.false_ne_true, if_pos hdotDot, Option.bind_some]
              exact ih h
          | false =>
              rw [if_neg Bool.false_ne_true, enter_makeIn h base hdot hdotDot]
              split
              next hmade =>
                rw [Option.bind_some, and_iff_right hmade]
                exact ih hnext
              next hmade =>
                rw [Option.bind_none]
                exact iff_of_false Bool.false_ne_true (fun hall => hmade hall.left)

/-!
## Opening and removing a file
-/

theorem openFor_concat (mayWrite : NodePath -> Bool) (base : NodePath) (t : FileTree)
    (names : List (List Char)) (name : List Char) :
    openFor mayCreate mayWrite base t (names ++ [name]) =
      (t.walk base names).bind (fun dir => t.openIn mayCreate mayWrite dir name) := by
  unfold openFor
  rw [List.getLast?_concat, List.dropLast_concat]

variable (mayCreate) in
def ChangesFiles (t t' : FileTree) : Prop :=
  forall q, t'.node q = t.node q ∨
    (t.node q = some .file ∧ t'.node q = none) ∨
      (t.node q = none ∧ mayCreate q = true ∧ t'.node q = some .file)

theorem changesFiles_refl (t : FileTree) : ChangesFiles mayCreate t t :=
  fun _ => Or.inl rfl

theorem ChangesFiles.trans {t t' t'' : FileTree} (h : ChangesFiles mayCreate t t')
    (h' : ChangesFiles mayCreate t' t'') : ChangesFiles mayCreate t t'' := by
  intro q
  rcases h' q with heq | ⟨hfile, hnone⟩ | ⟨hnone, hmay, hfile⟩
  · rw [heq]
    exact h q
  · rcases h q with heq | ⟨_, hnone'⟩ | ⟨hnone', _, _⟩
    · exact Or.inr (Or.inl ⟨heq.symm.trans hfile, hnone⟩)
    · rw [hnone'] at hfile
      cases hfile
    · exact Or.inl (hnone.trans hnone'.symm)
  · rcases h q with heq | ⟨hfile', _⟩ | ⟨_, _, hfile'⟩
    · exact Or.inr (Or.inr ⟨heq.symm.trans hnone, hmay, hfile⟩)
    · exact Or.inl (hfile.trans hfile'.symm)
    · rw [hfile'] at hnone
      cases hnone

theorem changesFiles_openIn {mayWrite : NodePath -> Bool} {t : FileTree} {dir : NodePath}
    {name : List Char} {opened : FileTree × NodePath}
    (hopened : t.openIn mayCreate mayWrite dir name = some opened) :
    ChangesFiles mayCreate t opened.1 := by
  unfold openIn at hopened
  split at hopened
  · cases hopened
  · split at hopened
    · cases hopened
    · split at hopened
      · injection hopened with hopened
        rw [← hopened]
        exact changesFiles_refl t
      · cases hopened
    next hnone =>
      split at hopened
      next hmay =>
        injection hopened with hopened
        rw [← hopened]
        intro q
        by_cases hq : q = dir ++ [name]
        · rw [hq]
          exact Or.inr (Or.inr ⟨hnone, hmay, node_insert_self t _ _⟩)
        · exact Or.inl (node_insert_ne t hq _)
      next => cases hopened

theorem changesFiles_openFor {mayWrite : NodePath -> Bool} {base : NodePath} {t : FileTree}
    {names : List (List Char)} {opened : FileTree × NodePath}
    (hopened : openFor mayCreate mayWrite base t names = some opened) :
    ChangesFiles mayCreate t opened.1 := by
  unfold openFor at hopened
  split at hopened
  · cases hopened
  · rcases Option.bind_eq_some_iff.mp hopened with ⟨dir, _, hin⟩
    exact changesFiles_openIn hin

theorem changesFiles_remove (t : FileTree) (place : NodePath) :
    ChangesFiles mayCreate t (t.remove place) := by
  intro q
  unfold remove
  dsimp only
  split
  next hfile => exact Or.inr (Or.inl ⟨hfile.right, rfl⟩)
  next => exact Or.inl rfl

variable (mayCreate) in
theorem changesFiles_unlinkAt (base : NodePath) (t : FileTree) (names : List (List Char)) :
    ChangesFiles mayCreate t (unlinkAt base t names) := by
  unfold unlinkAt
  split
  · exact changesFiles_refl t
  · split
    · exact changesFiles_refl t
    · exact changesFiles_remove t _

theorem ChangesFiles.dir_iff {t t' : FileTree} (h : ChangesFiles mayCreate t t') (q : NodePath) :
    t'.node q = some .dir <-> t.node q = some .dir := by
  rcases h q with heq | ⟨hfile, hnone⟩ | ⟨hnone, _, hfile⟩
  · rw [heq]
  · rw [hnone, hfile]
    exact iff_of_false (by simp) (by simp)
  · rw [hnone, hfile]
    exact iff_of_false (by simp) (by simp)

theorem ChangesFiles.walk {t t' : FileTree} (h : ChangesFiles mayCreate t t') (dir : NodePath)
    (names : List (List Char)) : t'.walk dir names = t.walk dir names := by
  have henter : t'.enter = t.enter := by
    funext dir name
    unfold FileTree.enter
    simp only [h.dir_iff]
  induction names generalizing dir with
  | nil => rfl
  | cons name rest ih =>
      unfold FileTree.walk
      rw [henter, funext ih]

end Create

end FileTree

end Foundation
end PerfMonitor
