import PerfMonitor.Foundation.Http
import PerfMonitor.Manager.HttpServer

/-!
# Framing of the responses

`serve_loop` puts each response together as one string, with bodies that carry host
names and event texts as they were reported.  A client that reads the string as an HTTP
message must find the status, the fields and the body that the endpoint meant, whatever
those texts contain.
-/

namespace PerfMonitor
namespace Manager

open Foundation

namespace MetricsExporter

def okAnswer (fields : List (Str × Str)) (body : Str) : Http.Response where
  status := 200
  reason := "OK".toList
  fields := fields ++ [(Http.contentLength, Nat.toDigits 10 body.length)]
  body := body

def allowOrigin : Str × Str :=
  ("Access-Control-Allow-Origin".toList, "*".toList)

def contentType (type : String) : Str × Str :=
  ("Content-Type".toList, type.toList)

def answer (sys : HttpSystem) (showDouble : Rat -> Str) (hosts : List HostSnapshot)
    (sent : Str) : Http.Response :=
  let (path, query) := requestTarget sent
  if path = "/healthz".toList then
    { status := 200
      reason := "OK".toList
      fields := [contentType "text/plain"]
      body := "OK".toList }
  else if path = "/api/events".toList then
    okAnswer [contentType "application/json", allowOrigin] (apiEvents showDouble hosts)
  else if path = "/api/flamegraph".toList then
    if (apiFlamegraph sys query).2 = [] then
      { status := 400
        reason := "Bad Request".toList
        fields := [contentType "text/plain"]
        body := "Invalid or missing file parameter".toList }
    else okAnswer [contentType "image/svg+xml", allowOrigin] (apiFlamegraph sys query).2
  else
    okAnswer [contentType "text/plain; version=0.0.4"]
      (render showDouble (prometheusMetrics hosts))

theorem toList_toString_length (n : Nat) : (toString n).toList = Nat.toDigits 10 n :=
  toList_toString_ofNat n

theorem okResponse_eq {headers : Str} {fields : List (Str × Str)}
    (hheaders : "Content-Type: ".toList ++ headers = Http.renderFields fields) (body : Str) :
    okResponse headers body = Http.render (okAnswer fields body) := by
  have hfront : "HTTP/1.1 200 OK\r\nContent-Type: ".toList =
      Http.statusLine 200 "OK".toList ++ Http.crlf ++ "Content-Type: ".toList := by decide
  have hlast : Http.renderFields
      (fields ++ [(Http.contentLength, Nat.toDigits 10 body.length)]) =
      Http.renderFields fields ++ ("Content-Length: ".toList ++ Nat.toDigits 10 body.length ++
        Http.crlf) := by
    unfold Http.renderFields
    rw [List.flatMap_append, List.flatMap_singleton]
    rfl
  have hend : "\r\n\r\n".toList = Http.crlf ++ Http.crlf := by decide
  unfold okResponse Http.render okAnswer
  dsimp only
  rw [hfront, toList_toString_length, hlast, ← hheaders, hend]
  simp only [List.append_assoc]

theorem fieldOk_of_length (n : Nat) : Http.FieldOk (Http.contentLength, Nat.toDigits 10 n) := by
  constructor
  case name =>
    show Http.contentLength ≠ [] ∧ ':' ∉ Http.contentLength ∧ '\r' ∉ Http.contentLength
    decide
  case value =>
    refine ⟨?_, Http.notMem_toDigits (by decide) n⟩
    intro hhead
    exact Http.notMem_toDigits (by decide) n (List.mem_of_head? hhead)

theorem okAnswer_valid {fields : List (Str × Str)} (body : Str)
    (hfields : forall field, field ∈ fields -> Http.FieldOk field ∧ field.1 ≠ Http.contentLength) :
    (okAnswer fields body).Valid := by
  constructor
  case status =>
    show (Nat.toDigits 10 200).length = 3
    decide
  case reason =>
    show '\r' ∉ "OK".toList
    decide
  case fields =>
    intro field hfield
    rcases List.mem_append.mp hfield with hfield | hlength
    · exact (hfields field hfield).left
    · rw [List.mem_singleton.mp hlength]
      exact fieldOk_of_length _
  case length =>
    intro field hfield hname
    rcases List.mem_append.mp hfield with hfield | hlength
    · exact absurd hname (hfields field hfield).right
    · rw [List.mem_singleton.mp hlength]
      rfl

theorem valid_of_plain {r : Http.Response} (hstatus : (Nat.toDigits 10 r.status).length = 3)
    (hreason : '\r' ∉ r.reason) (hfields : r.fields = [contentType "text/plain"]) : r.Valid := by
  constructor
  case status => exact hstatus
  case reason => exact hreason
  case fields =>
    intro field hfield
    rw [hfields] at hfield
    rw [List.mem_singleton.mp hfield]
    decide
  case length =>
    intro field hfield hname
    rw [hfields] at hfield
    rw [List.mem_singleton.mp hfield] at hname
    exact absurd hname (by decide)

theorem answer_valid (sys : HttpSystem) (showDouble : Rat -> Str) (hosts : List HostSnapshot)
    (sent : Str) : (answer sys showDouble hosts sent).Valid := by
  unfold answer
  dsimp only
  split
  · exact valid_of_plain (by decide) (by decide) rfl
  · split
    · exact okAnswer_valid _ (by decide)
    · split
      · split
        · exact valid_of_plain (by decide) (by decide) rfl
        · exact okAnswer_valid _ (by decide)
      · exact okAnswer_valid _ (by decide)

theorem serveRequest_eq_render (sys : HttpSystem) (showDouble : Rat -> Str)
    (hosts : List HostSnapshot) (sent : Str) :
    (serveRequest sys showDouble hosts sent).2 =
      Http.render (answer sys showDouble hosts sent) := by
  unfold serveRequest answer
  dsimp only
  split
  · decide
  · split
    · exact okResponse_eq (by decide) _
    · split
      · split
        · show ("HTTP/1.1 400 Bad Request\r\nContent-Type: text/plain\r\n\r\n" ++
            "Invalid or missing file parameter").toList = _
          decide
        · exact okResponse_eq (by decide) _
      · exact okResponse_eq (by decide) _

end MetricsExporter

end Manager
end PerfMonitor
