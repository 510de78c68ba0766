import PerfMonitor.Manager.HttpServer

/-!
# Requests that arrive in parts

`serve_loop` calls `read` once for each connection, and `read` returns what has arrived
so far.  If that ends before the space after the target, the request line has a single
space or none, and the request is answered as one for the root path.
-/

namespace PerfMonitor
namespace Manager

open Foundation

structure LinePart (s : Str) : Prop where
  space : ' ' ∉ s
  cr : '\r' ∉ s
  nul : '\x00' ∉ s

/-- A GET request: the target and the version of its request line, and the header
fields, the empty line and the body after it.  Every well-formed one has this form; what
follows the request line is left open. -/
structure HttpGet where
  target : Str
  version : Str
  rest : Str
  targetPart : LinePart target
  versionPart : LinePart version

namespace HttpGet

def front (req : HttpGet) : Str :=
  "GET ".toList ++ req.target

def text (req : HttpGet) : Str :=
  req.front ++ ' ' :: (req.version ++ '\r' :: '\n' :: req.rest)

/-- What the loop reads when `read` would return the parts one after another. -/
def firstRead : List Str -> Str
  | [] => []
  | part :: _ => part

/-- The request is answered in parts as it is in one piece, for the same path and query. -/
structure SameDispatch (req : HttpGet) (parts : List Str) : Prop where
  target : MetricsExporter.requestTarget (firstRead parts) =
    MetricsExporter.requestTarget req.text
  answer : forall sys showDouble hosts,
    MetricsExporter.serveRequest sys showDouble hosts (firstRead parts) =
      MetricsExporter.serveRequest sys showDouble hosts req.text

/-- The first part has the target and the space after it, or the request is for the root
path without a query. -/
def TargetRead (req : HttpGet) (parts : List Str) : Prop :=
  req.front.length < (firstRead parts).length ∨
    req.target = "/".toList ∨ req.target = "/?".toList

section Lines

variable (req : HttpGet)

theorem front_eq : req.front = "GET".toList ++ ' ' :: req.target := rfl

theorem notMem_front {c : Char} (hmethod : c ∉ "GET ".toList) (htarget : c ∉ req.target) :
    c ∉ req.front :=
  List.not_mem_append hmethod htarget

theorem cr_notMem_front : '\r' ∉ req.front :=
  req.notMem_front (by decide) req.targetPart.cr

theorem nul_notMem_front : '\x00' ∉ req.front :=
  req.notMem_front (by decide) req.targetPart.nul

theorem requestLine_of_noCr {s : Str} (h : '\r' ∉ s) : MetricsExporter.requestLine s = s := by
  have hnone : findText "\r\n".toList s = none := by
    apply findText_eq_none.mpr
    intro hpair
    exact h (hpair.subset List.mem_cons_self)
  unfold MetricsExporter.requestLine
  rw [hnone]

theorem requestLine_of_lastCr {s : Str} (h : '\r' ∉ s) :
    MetricsExporter.requestLine (s ++ ['\r']) = s ++ ['\r'] := by
  have hnone : findText "\r\n".toList (s ++ ['\r']) = none := by
    apply findText_eq_none.mpr
    intro hpair
    rcases List.infix_concat_iff.mp hpair with hsuffix | hpair
    · rcases List.suffix_concat_iff.mp hsuffix with hnil | ⟨t, heq, _⟩
      · exact absurd hnil (by decide)
      · have hlast := congrArg List.getLast? heq
        rw [List.getLast?_concat] at hlast
        exact absurd hlast (by decide)
    · exact h (hpair.subset List.mem_cons_self)
  unfold MetricsExporter.requestLine
  rw [hnone]

theorem requestLine_of_lineEnd {s : Str} (h : '\r' ∉ s) (rest : Str) :
    MetricsExporter.requestLine (s ++ '\r' :: '\n' :: rest) = s := by
  have hfind : findText "\r\n".toList (s ++ '\r' :: '\n' :: rest) = some s.length :=
    findText_append h rest
  unfold MetricsExporter.requestLine
  rw [hfind]
  exact List.take_left

/-- What follows the space after the target, as far as it has arrived, adds no further
space to the request line. -/
theorem requestLine_front {arrived : Str}
    (h : arrived <+: req.version ++ '\r' :: '\n' :: req.rest) :
    exists version, ' ' ∉ version ∧
      MetricsExporter.requestLine (req.front ++ ' ' :: arrived) = req.front ++ ' ' :: version := by
  have hline : forall version, '\r' ∉ version -> '\r' ∉ req.front ++ ' ' :: version := by
    intro version hversion
    exact List.not_mem_append req.cr_notMem_front
      (List.not_mem_cons_of_ne_of_not_mem (by decide) hversion)
  have hwhole := hline req.version req.versionPart.cr
  rcases h with ⟨later, heq⟩
  rcases List.append_eq_append_iff.mp heq with ⟨t, hversion, _⟩ | ⟨t, harrived, hrest⟩
  · have hsub : forall c, c ∈ arrived -> c ∈ req.version := by
      intro c hc
      rw [hversion]
      exact List.mem_append_left t hc
    exact ⟨arrived, fun hmem => req.versionPart.space (hsub _ hmem),
      requestLine_of_noCr (hline arrived (fun hmem => req.versionPart.cr (hsub _ hmem)))⟩
  · rw [harrived, ← List.cons_append, ← List.append_assoc]
    cases t with
    | nil =>
        rw [List.append_nil]
        exact ⟨req.version, req.versionPart.space, requestLine_of_noCr hwhole⟩
    | cons first t =>
        injection hrest with hfirst hrest
        subst hfirst
        cases t with
        | nil =>
            refine ⟨req.version ++ ['\r'],
              List.not_mem_append req.versionPart.space (by decide), ?_⟩
            rw [requestLine_of_lastCr hwhole, List.append_assoc]
            rfl
        | cons second t =>
            injection hrest with hsecond _
            subst hsecond
            exact ⟨req.version, req.versionPart.space, requestLine_of_lineEnd hwhole t⟩

theorem requestTarget_front {arrived : Str}
    (h : arrived <+: req.version ++ '\r' :: '\n' :: req.rest)
    (hlength : (req.front ++ ' ' :: arrived).length ≤ 4095) :
    MetricsExporter.requestTarget (req.front ++ ' ' :: arrived) =
      MetricsExporter.splitQuery req.target := by
  have hnul : '\x00' ∉ req.front ++ [' '] :=
    List.not_mem_append req.nul_notMem_front (by decide)
  have hread : MetricsExporter.readRequest (req.front ++ ' ' :: arrived) =
      req.front ++ ' ' :: cString arrived := by
    unfold MetricsExporter.readRequest
    rw [List.take_of_length_le hlength, List.append_cons, cString_append hnul, ← List.append_cons]
  have harrived : cString arrived <+: req.version ++ '\r' :: '\n' :: req.rest :=
    (List.takeWhile_prefix _).trans h
  rcases req.requestLine_front harrived with ⟨version, hversion, hline⟩
  have hsplit : req.front ++ ' ' :: version =
      "GET".toList ++ ' ' :: (req.target ++ ' ' :: version) := by
    rw [front_eq, List.append_assoc]
    rfl
  unfold MetricsExporter.requestTarget
  rw [hread, hline, hsplit, MetricsExporter.fullPath_append (by decide) hversion]

theorem fullPath_of_front {s : Str} (h : s <+: req.front) :
    MetricsExporter.fullPath s = "/".toList := by
  rcases findChar_cases ' ' s with ⟨_, hfind⟩ | ⟨method, target, heq, hmethod, hfind⟩
  · unfold MetricsExporter.fullPath
    rw [hfind]
  · have hlast : ' ' ∉ target := by
      intro hmem
      rcases h with ⟨later, hfront⟩
      rw [heq, List.append_assoc, List.cons_append, front_eq] at hfront
      have hfirst := findChar_append hmethod (target ++ later)
      rw [hfront, findChar_append (by decide)] at hfirst
      injection hfirst with hlength
      have htarget := List.append_inj_right hfront hlength.symm
      injection htarget with _ htarget
      apply req.targetPart.space
      rw [← htarget]
      exact List.mem_append_left later hmem
    have hrfind : rfind ' ' s = some method.length := by
      rw [heq]
      exact rfind_append method hlast
    unfold MetricsExporter.fullPath
    rw [hfind, hrfind]
    dsimp only
    rw [if_neg (Nat.lt_irrefl _)]

theorem requestTarget_of_front {s : Str} (h : s <+: req.front) (hlength : s.length ≤ 4095) :
    MetricsExporter.requestTarget s = ("/".toList, []) := by
  have hnul : '\x00' ∉ s := fun hmem => req.nul_notMem_front (h.subset hmem)
  have hcr : '\r' ∉ s := fun hmem => req.cr_notMem_front (h.subset hmem)
  unfold MetricsExporter.requestTarget
  rw [MetricsExporter.readRequest_of_fits hlength hnul, requestLine_of_noCr hcr,
    req.fullPath_of_front h]
  rfl

end Lines

theorem splitQuery_eq_root_iff (target : Str) :
    MetricsExporter.splitQuery target = ("/".toList, []) <->
      target = "/".toList ∨ target = "/?".toList := by
  constructor
  · intro h
    rcases findChar_cases '?' target with ⟨_, hfind⟩ | ⟨path, query, heq, hpath, _⟩
    · left
      unfold MetricsExporter.splitQuery at h
      rw [hfind] at h
      exact congrArg Prod.fst h
    · right
      rw [heq, MetricsExporter.splitQuery_append hpath] at h
      injection h with hroot hempty
      rw [heq, hroot, hempty]
      rfl
  · rintro (rfl | rfl)
    · rfl
    · rfl

theorem serveRequest_of_target {s s' : Str}
    (h : MetricsExporter.requestTarget s = MetricsExporter.requestTarget s') (sys : HttpSystem)
    (showDouble : Rat -> Str) (hosts : List HostSnapshot) :
    MetricsExporter.serveRequest sys showDouble hosts s =
      MetricsExporter.serveRequest sys showDouble hosts s' := by
  unfold MetricsExporter.serveRequest
  rw [h]

/-- A request of fewer than 4096 bytes is answered in parts as it is in one piece exactly
when the first part has its target and the space after it, or it is for the root path
without a query. -/
theorem sameDispatch_iff_targetRead (req : HttpGet) (parts : List Str)
    (hparts : parts.flatten = req.text) (hlength : req.text.length < 4096) :
    req.SameDispatch parts <-> req.TargetRead parts := by
  have hfirst : firstRead parts <+: req.text := by
    rw [← hparts]
    cases parts with
    | nil => exact List.prefix_refl _
    | cons part later => exact List.prefix_append part later.flatten
  have hfits : (firstRead parts).length ≤ 4095 := by
    have hle := hfirst.length_le
    omega
  have hwhole : MetricsExporter.requestTarget req.text =
      MetricsExporter.splitQuery req.target :=
    req.requestTarget_front (List.prefix_refl _) (Nat.le_of_lt_succ hlength)
  have hsame : req.SameDispatch parts <->
      MetricsExporter.requestTarget (firstRead parts) = MetricsExporter.splitQuery req.target := by
    rw [← hwhole]
    constructor
    · intro h
      exact h.target
    · intro h
      exact ⟨h, serveRequest_of_target h⟩
  rw [hsame]
  unfold TargetRead
  rcases Nat.lt_or_ge req.front.length (firstRead parts).length with hlong | hshort
  · have hbeyond : req.front ++ [' '] <+: firstRead parts := by
      apply List.prefix_of_prefix_length_le _ hfirst
      · rw [List.length_append, List.length_singleton]
        exact hlong
      · exact ⟨_, List.append_cons _ _ _ |>.symm⟩
    rcases hbeyond with ⟨arrived, heq⟩
    rw [← List.append_cons] at heq
    have harrived : arrived <+: req.version ++ '\r' :: '\n' :: req.rest := by
      rw [← heq] at hfirst
      exact (List.cons_prefix_cons.mp ((List.prefix_append_right_inj req.front).mp hfirst)).right
    rw [← heq] at hfits ⊢
    constructor
    · intro _
      left
      rw [heq]
      exact hlong
    · intro _
      exact req.requestTarget_front harrived hfits
  · have hfront : firstRead parts <+: req.front :=
      List.prefix_of_prefix_length_le hfirst (List.prefix_append _ _) hshort
    rw [req.requestTarget_of_front hfront hfits, eq_comm, splitQuery_eq_root_iff]
    constructor
    · intro h
      exact Or.inr h
    · intro h
      exact h.resolve_left (Nat.not_lt.mpr hshort)

def healthz : HttpGet where
  target := "/healthz".toList
  version := "HTTP/1.1".toList
  rest := "Host: manager\r\n\r\n".toList
  targetPart := ⟨by decide, by decide, by decide⟩
  versionPart := ⟨by decide, by decide, by decide⟩

def healthzInTwo : List Str :=
  ["GET /heal".toList, "thz HTTP/1.1\r\nHost: manager\r\n\r\n".toList]

def healthzByLine : List Str :=
  ["GET /healthz HTTP/1.1\r\n".toList, "Host: manager\r\n\r\n".toList]

theorem healthzByLine_sameDispatch : healthz.SameDispatch healthzByLine :=
  (sameDispatch_iff_targetRead healthz healthzByLine (by decide) (by decide)).mpr
    (Or.inl (by decide))

/-- A check of the health that arrives in two parts is answered with the metrics. -/
theorem healthzInTwo_not_sameDispatch :
    healthzInTwo.flatten = healthz.text ∧ healthz.text.length < 4096 ∧
      ¬ healthz.SameDispatch healthzInTwo := by
  refine ⟨by decide, by decide, ?_⟩
  intro h
  have htarget := h.target
  revert htarget
  decide +kernel

end HttpGet

end Manager
end PerfMonitor
