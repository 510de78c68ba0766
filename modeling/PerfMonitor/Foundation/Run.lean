import Mathlib.Data.List.Basic

/-!
# Finite runs of a step function

A component is a state, a type of operations and a total step function.  This
module develops what the later modules need about finite runs of such a
component: the final state, properties that hold in every state the run
passes through, conditions on every step of the run, and the invariant,
simulation and projection rules that connect them.

Nothing here mentions a particular component.
-/

namespace PerfMonitor
namespace Foundation

/-- State reached from a state by performing a list of operations in order. -/
def runFrom (step : state -> op -> state) : state -> List op -> state
  | s, [] => s
  | s, o :: rest => runFrom step (step s o) rest

/-- A property holds in the start state and after every operation of the run. -/
def Throughout (step : state -> op -> state) (P : state -> Prop) :
    state -> List op -> Prop
  | s, [] => P s
  | s, o :: rest => P s ∧ Throughout step P (step s o) rest

/-- A condition on a state and the operation performed there holds at every
step of the run. -/
def EachStep (step : state -> op -> state) (C : state -> op -> Prop) :
    state -> List op -> Prop
  | _, [] => True
  | s, o :: rest => C s o ∧ EachStep step C (step s o) rest

section Runs

variable {state op view : Type*} {step : state -> op -> state}
  {P Inv : state -> Prop} {C : state -> op -> Prop}

@[simp] theorem runFrom_nil (s : state) : runFrom step s [] = s := rfl

@[simp] theorem runFrom_cons (s : state) (o : op) (rest : List op) :
    runFrom step s (o :: rest) = runFrom step (step s o) rest := rfl

theorem runFrom_append (s : state) (first second : List op) :
    runFrom step s (first ++ second) =
      runFrom step (runFrom step s first) second := by
  induction first generalizing s with
  | nil => rfl
  | cons o rest ih => exact ih (step s o)

theorem runFrom_concat (s : state) (ops : List op) (o : op) :
    runFrom step s (ops ++ [o]) = step (runFrom step s ops) o := by
  rw [runFrom_append]
  rfl

/-- What every step establishes between the state and its operation holds of the last
operation after the run, if it held of `first` before. -/
theorem runFrom_last {R : state -> op -> Prop} (hstep : forall s o, R (step s o) o) {s : state}
    {first : op} (hstart : R s first) (ops : List op) :
    R (runFrom step s ops) (ops.getLast?.getD first) := by
  induction ops generalizing s first with
  | nil => exact hstart
  | cons o rest ih =>
      rw [List.getLast?_cons, Option.getD_some]
      exact ih (hstep s o)

instance decidableThroughout [DecidablePred P] (s : state) (ops : List op) :
    Decidable (Throughout step P s ops) :=
  match ops with
  | [] => inferInstanceAs (Decidable (P s))
  | o :: rest =>
      have : Decidable (Throughout step P (step s o) rest) :=
        decidableThroughout (step s o) rest
      inferInstanceAs (Decidable (P s ∧ Throughout step P (step s o) rest))

instance decidableEachStep [forall s o, Decidable (C s o)] (s : state) (ops : List op) :
    Decidable (EachStep step C s ops) :=
  match ops with
  | [] => inferInstanceAs (Decidable True)
  | o :: rest =>
      have : Decidable (EachStep step C (step s o) rest) :=
        decidableEachStep (step s o) rest
      inferInstanceAs (Decidable (C s o ∧ EachStep step C (step s o) rest))

/-!
## Properties of all visited states
-/

theorem throughout_start {s : state} {ops : List op}
    (h : Throughout step P s ops) : P s := by
  cases ops with
  | nil => exact h
  | cons o rest => exact h.left

theorem throughout_iff_prefixes {s : state} {ops : List op} :
    Throughout step P s ops <->
      forall first second, ops = first ++ second -> P (runFrom step s first) := by
  induction ops generalizing s with
  | nil =>
      constructor
      · intro h first second heq
        have hfirst : first = [] := (List.append_eq_nil_iff.mp heq.symm).left
        rw [hfirst]
        exact h
      · intro h
        exact h [] [] rfl
  | cons o rest ih =>
      constructor
      · intro h first second heq
        cases first with
        | nil => exact h.left
        | cons o' first' =>
            injection heq with ho hrest
            subst ho
            exact (ih.mp h.right) first' second hrest
      · intro h
        constructor
        · exact h [] (o :: rest) rfl
        · apply ih.mpr
          intro first second heq
          exact h (o :: first) second (by rw [heq]; rfl)

theorem throughout_final {s : state} {ops : List op}
    (h : Throughout step P s ops) : P (runFrom step s ops) :=
  throughout_iff_prefixes.mp h ops [] (by simp)

theorem throughout_mono {Q : state -> Prop} (hPQ : forall s, P s -> Q s)
    {s : state} {ops : List op} (h : Throughout step P s ops) :
    Throughout step Q s ops := by
  induction ops generalizing s with
  | nil => exact hPQ s h
  | cons o rest ih => exact ⟨hPQ s h.left, ih h.right⟩

/-!
## Invariant rules

The guarded rule carries an invariant along a run all of whose steps meet a
condition; the converse rule recovers the condition from a property of the
visited states when breaking the condition breaks the property at once.
-/

theorem throughout_of_guarded
    (hstep : forall s o, Inv s -> C s o -> Inv (step s o))
    {s : state} {ops : List op} (hs : Inv s) (hC : EachStep step C s ops) :
    Throughout step Inv s ops := by
  induction ops generalizing s with
  | nil => exact hs
  | cons o rest ih => exact ⟨hs, ih (hstep s o hs hC.left) hC.right⟩

theorem eachStep_of_always (hC : forall s o, C s o) (s : state) (ops : List op) :
    EachStep step C s ops := by
  induction ops generalizing s with
  | nil => trivial
  | cons o rest ih => exact ⟨hC s o, ih (step s o)⟩

theorem eachStep_iff_forall_mem {D : op -> Prop} (step : state -> op -> state) (s : state)
    {ops : List op} : EachStep step (fun _ o => D o) s ops <-> forall o, o ∈ ops -> D o := by
  induction ops generalizing s with
  | nil =>
      constructor
      · intro _ o ho
        cases ho
      · intro _
        trivial
  | cons o rest ih =>
      rw [List.forall_mem_cons, ← ih (step s o)]
      rfl

theorem eachStep_append {s : state} {first second : List op} :
    EachStep step C s (first ++ second) <->
      EachStep step C s first ∧ EachStep step C (runFrom step s first) second := by
  induction first generalizing s with
  | nil => exact (and_iff_right trivial).symm
  | cons o rest ih =>
      show C s o ∧ EachStep step C (step s o) (rest ++ second) <-> _
      rw [ih, ← and_assoc]
      rfl

theorem eachStep_iff_splits {s : state} {ops : List op} :
    EachStep step C s ops <->
      forall first o second, ops = first ++ o :: second ->
        C (runFrom step s first) o := by
  induction ops generalizing s with
  | nil =>
      constructor
      · intro _ first o second heq
        have hcons := (List.append_eq_nil_iff.mp heq.symm).right
        cases hcons
      · intro _
        trivial
  | cons o' rest ih =>
      constructor
      · intro h first o second heq
        cases first with
        | nil =>
            injection heq with ho _hrest
            subst ho
            exact h.left
        | cons o'' first' =>
            injection heq with ho hrest
            subst ho
            exact ih.mp h.right first' o second hrest
      · intro h
        constructor
        · exact h [] o' rest rfl
        · apply ih.mpr
          intro first o second heq
          exact h (o' :: first) o second (by rw [heq]; rfl)

theorem throughout_of_invariant
    (hstep : forall s o, Inv s -> Inv (step s o))
    {s : state} (hs : Inv s) (ops : List op) :
    Throughout step Inv s ops :=
  throughout_of_guarded (C := fun _ _ => True)
    (fun s o h _ => hstep s o h) hs
    (eachStep_of_always (fun _ _ => trivial) s ops)

theorem runFrom_invariant
    (hstep : forall s o, Inv s -> Inv (step s o))
    {s : state} (hs : Inv s) (ops : List op) :
    Inv (runFrom step s ops) :=
  throughout_final (throughout_of_invariant hstep hs ops)

theorem eachStep_of_throughout
    (hstep : forall s o, Inv s -> C s o -> Inv (step s o))
    (hbreak : forall s o, Inv s -> P (step s o) -> C s o)
    {s : state} {ops : List op} (hs : Inv s) (hP : Throughout step P s ops) :
    EachStep step C s ops := by
  induction ops generalizing s with
  | nil => trivial
  | cons o rest ih =>
      have hC : C s o := hbreak s o hs (throughout_start hP.right)
      exact ⟨hC, ih (hstep s o hs hC) hP.right⟩

/-- A property holds in all visited states exactly when every step meets the
condition, provided the condition carries an invariant that implies the
property and a step that breaks the condition breaks the property. -/
theorem throughout_iff_eachStep
    (hstep : forall s o, Inv s -> C s o -> Inv (step s o))
    (hbreak : forall s o, Inv s -> P (step s o) -> C s o)
    (himp : forall s, Inv s -> P s)
    {s : state} (hs : Inv s) (ops : List op) :
    Throughout step P s ops <-> EachStep step C s ops := by
  constructor
  · exact eachStep_of_throughout hstep hbreak hs
  · intro hC
    exact throughout_mono himp (throughout_of_guarded hstep hs hC)

theorem throughout_iff_eachStep_of_env {E : state -> op -> Prop}
    (hstep : forall s o, Inv s -> E s o -> Inv (step s o))
    (hdecide : forall s o, Inv s -> E s o -> P s -> (P (step s o) <-> C s o))
    {s : state} {ops : List op} (hs : Inv s) (hP : P s) (hE : EachStep step E s ops) :
    Throughout step P s ops <-> EachStep step C s ops := by
  induction ops generalizing s with
  | nil => exact ⟨fun _ => trivial, fun _ => hP⟩
  | cons o rest ih =>
      have hfirst := hdecide s o hs hE.left hP
      have hlater := fun hP' => ih (hstep s o hs hE.left) hP' hE.right
      constructor
      · intro h
        have hP' := throughout_start h.right
        exact ⟨hfirst.mp hP', (hlater hP').mp h.right⟩
      · intro h
        exact ⟨hP, (hlater (hfirst.mpr h.left)).mpr h.right⟩

/-- Two conditions on the steps of a run agree when they agree at every step that
the invariant covers, and the second one carries the invariant. -/
theorem eachStep_iff_eachStep {D : state -> op -> Prop}
    (hstep : forall s o, Inv s -> C s o -> Inv (step s o))
    (hiff : forall s o, Inv s -> (D s o <-> C s o))
    {s : state} (hs : Inv s) (ops : List op) :
    EachStep step D s ops <-> EachStep step C s ops := by
  induction ops generalizing s with
  | nil => exact Iff.rfl
  | cons o rest ih =>
      have hfirst := hiff s o hs
      constructor
      · intro h
        have hC := hfirst.mp h.left
        exact ⟨hC, (ih (hstep s o hs hC)).mp h.right⟩
      · intro h
        exact ⟨hfirst.mpr h.left, (ih (hstep s o hs h.left)).mpr h.right⟩

theorem eachStep_congr {D : state -> op -> Prop} (hiff : forall s o, D s o <-> C s o) (s : state)
    (ops : List op) : EachStep step D s ops <-> EachStep step C s ops := by
  induction ops generalizing s with
  | nil => exact Iff.rfl
  | cons o rest ih => exact and_congr (hiff s o) (ih (step s o))

/-!
## Progress
-/

/-- A run leaves a phase when a measure bounds how many operations of one kind the
phase can last for: each of them lowers it, no other operation raises it, and at zero
the last operation leaves. -/
theorem exists_leaves {Stay : state -> Prop} (measure : state -> Nat) (lowers : op -> Bool)
    {last : op}
    (hlower : forall s o, Stay s -> Stay (step s o) -> lowers o = true ->
      measure (step s o) ≤ measure s - 1)
    (hkeep : forall s o, Stay s -> Stay (step s o) -> lowers o = false ->
      measure (step s o) ≤ measure s)
    (hleave : forall s, Stay s -> measure s = 0 -> ¬ Stay (step s last))
    {s : state} {ops : List op} (hcount : measure s ≤ ops.countP lowers) :
    exists first second, ops ++ [last] = first ++ second ∧ ¬ Stay (runFrom step s first) := by
  by_cases hs : Stay s
  · induction ops generalizing s with
    | nil => exact ⟨[last], [], rfl, hleave s hs (Nat.le_zero.mp hcount)⟩
    | cons o rest ih =>
        by_cases hnext : Stay (step s o)
        · have hrest : measure (step s o) ≤ rest.countP lowers := by
            rw [List.countP_cons] at hcount
            cases ho : lowers o with
            | true =>
                have hlow := hlower s o hs hnext ho
                rw [ho, if_pos rfl] at hcount
                omega
            | false =>
                have hsame := hkeep s o hs hnext ho
                rw [ho, if_neg Bool.false_ne_true] at hcount
                omega
          rcases ih hrest hnext with ⟨first, second, heq, hleft⟩
          exact ⟨o :: first, second, by rw [List.cons_append, heq]; rfl, hleft⟩
        · exact ⟨[o], rest ++ [last], rfl, hnext⟩
  · exact ⟨[], ops ++ [last], rfl, hs⟩

/-!
## Simulation and projection
-/

theorem runFrom_simulates {abstract : Type*}
    {absStep : abstract -> op -> abstract} {R : state -> abstract -> Prop}
    (hstep : forall s a o, R s a -> R (step s o) (absStep a o))
    {s : state} {a : abstract} (h : R s a) (ops : List op) :
    R (runFrom step s ops) (runFrom absStep a ops) := by
  induction ops generalizing s a with
  | nil => exact h
  | cons o rest ih => exact ih (hstep s a o h)

/-- A view of the state that some operations leave alone, and on which the
others act by themselves, is determined by the sublist of those others. -/
theorem runFrom_project (look : state -> view) {act : view -> op -> view}
    {relevant : op -> Bool}
    (hact : forall s o, relevant o = true -> look (step s o) = act (look s) o)
    (hframe : forall s o, relevant o = false -> look (step s o) = look s)
    (s : state) (ops : List op) :
    look (runFrom step s ops) =
      look (runFrom step s (ops.filter relevant)) := by
  have hview : forall (ops : List op) (s : state),
      look (runFrom step s ops) = runFrom act (look s) (ops.filter relevant) := by
    intro ops
    induction ops with
    | nil =>
        intro s
        rfl
    | cons o rest ih =>
        intro s
        cases ho : relevant o with
        | true =>
            rw [List.filter_cons_of_pos ho, runFrom_cons, runFrom_cons, ih,
              hact s o ho]
        | false =>
            have hneg : ¬ relevant o = true := by simp [ho]
            rw [List.filter_cons_of_neg hneg, runFrom_cons, ih, hframe s o ho]
  rw [hview ops s, hview (ops.filter relevant) s, List.filter_filter]
  simp only [Bool.and_self]

/-- Operations that leave a view alone where they occur can be left out of the run,
if the view after an operation depends on the view before it only. -/
theorem runFrom_filter {look : state -> view} {keep : op -> Bool}
    (hact : forall s s' o, look s = look s' -> look (step s o) = look (step s' o))
    {s s' : state} (hlook : look s = look s') {ops : List op}
    (hframe : EachStep step (fun s o => keep o = false -> look (step s o) = look s) s ops) :
    look (runFrom step s ops) = look (runFrom step s' (ops.filter keep)) := by
  induction ops generalizing s s' with
  | nil => exact hlook
  | cons o rest ih =>
      cases ho : keep o with
      | true =>
          rw [List.filter_cons_of_pos ho, runFrom_cons, runFrom_cons]
          exact ih (hact s s' o hlook) hframe.right
      | false =>
          have hneg : ¬ keep o = true := by simp [ho]
          rw [List.filter_cons_of_neg hneg, runFrom_cons]
          exact ih ((hframe.left ho).trans hlook) hframe.right

end Runs

end Foundation
end PerfMonitor
