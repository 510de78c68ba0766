import PerfMonitor.Foundation.Containers
import PerfMonitor.Proto.Messages
import Mathlib.Algebra.Order.Ring.Rat

/-!
# Host manager

The Manager's store of host snapshots, from `manager/src/host_manager.cpp`.
The hash table `hosts_` is a finite map; its iteration order is unspecified in
the source, so results about `getAll` are stated per host and never depend on
the order of the list.  Every member function holds the mutex for its whole
body, so each one is a single step of the store.
-/

namespace PerfMonitor
namespace Manager

open Foundation

structure DiagnoseRecord where
  type : Str := []
  processName : Str := []
  filePath : Str := []
  timestamp : Int := 0
  cpuPercent : Rat := 0
deriving DecidableEq, Repr

structure HostSnapshot where
  load1m : Rat := 0
  cpuUsedPct : Rat := 0
  memUsedPct : Rat := 0
  diskIops : Rat := 0
  netRxMbps : Rat := 0
  netTxMbps : Rat := 0
  netRxDropped : Rat := 0
  lastUpdate : Int := 0
  healthScore : Rat := 100
  hostname : Str := []
  procExecCount : Int := 0
  procExitCount : Int := 0
  tcpFlowCount : Int := 0
  tcpBytesSent : Int := 0
  tcpBytesRecv : Int := 0
  diagnoseEvents : List DiagnoseRecord := []
deriving DecidableEq, Repr

structure HostManager where
  hosts : Table Str HostSnapshot

namespace HostManager

def empty : HostManager where
  hosts := ∅

def computeHealth (snap : HostSnapshot) : Rat :=
  let score : Rat := 100
  let score := if snap.load1m > 8 then score - (snap.load1m - 8) * 5 else score
  let score :=
    if snap.cpuUsedPct > 90 then score - (snap.cpuUsedPct - 90) * 2 else score
  let score :=
    if snap.memUsedPct > 85 then score - (snap.memUsedPct - 85) * 2 else score
  let score := if snap.netRxDropped > 100 then score - 10 else score
  max 0 score

def mergeDiagnose (prevDiag newDiag : List DiagnoseRecord) : List DiagnoseRecord :=
  let merged := prevDiag ++ newDiag
  if merged.length > 20 then merged.drop (merged.length - 20) else merged

/-- `HostManager::Update`: overwrite the entry, keeping only a tail of the
diagnose events across the overwrite. -/
def update (mgr : HostManager) (hostname : Str) (snap : HostSnapshot) :
    HostManager :=
  -- operator[] inserts a default snapshot when the host is new
  let entry := (mgr.hosts.lookup hostname).getD {}
  { hosts := mgr.hosts.insert hostname
      { snap with
        hostname := hostname
        healthScore := computeHealth snap
        diagnoseEvents := mergeDiagnose entry.diagnoseEvents snap.diagnoseEvents } }

def get (mgr : HostManager) (hostname : Str) : HostSnapshot :=
  (mgr.hosts.lookup hostname).getD {}

def getAll (mgr : HostManager) : List HostSnapshot :=
  mgr.hosts.values

def expired (now maxAgeS : Int) (snap : HostSnapshot) : Bool :=
  decide (now - snap.lastUpdate > maxAgeS)

/-- `HostManager::RemoveExpired`: erase the expired entries while iterating. -/
def removeExpired (mgr : HostManager) (now maxAgeS : Int) : HostManager where
  hosts := mgr.hosts.eraseIf (fun _ snap => expired now maxAgeS snap)

/-!
## What one operation does to one entry
-/

theorem mergeDiagnose_eq_rtake (prevDiag newDiag : List DiagnoseRecord) :
    mergeDiagnose prevDiag newDiag = (prevDiag ++ newDiag).rtake 20 := by
  unfold mergeDiagnose
  by_cases hlen : (prevDiag ++ newDiag).length > 20
  · rw [if_pos hlen]
    rfl
  · rw [if_neg hlen, rtake_of_length_le (by omega)]

theorem lookup_update_self (mgr : HostManager) (hostname : Str)
    (snap : HostSnapshot) :
    (mgr.update hostname snap).hosts.lookup hostname =
      some { snap with
        hostname := hostname
        healthScore := computeHealth snap
        diagnoseEvents :=
          ((mgr.get hostname).diagnoseEvents ++ snap.diagnoseEvents).rtake 20 } := by
  unfold update get
  rw [AList.lookup_insert, mergeDiagnose_eq_rtake]

theorem lookup_update_ne (mgr : HostManager) {hostname h : Str}
    (snap : HostSnapshot) (hne : h ≠ hostname) :
    (mgr.update hostname snap).hosts.lookup h = mgr.hosts.lookup h := by
  unfold update
  rw [AList.lookup_insert_ne hne]

theorem lookup_removeExpired (mgr : HostManager) (now maxAgeS : Int) (h : Str) :
    (mgr.removeExpired now maxAgeS).hosts.lookup h =
      (mgr.hosts.lookup h).filter (fun snap => !expired now maxAgeS snap) :=
  Table.lookup_eraseIf _ mgr.hosts h

end HostManager

end Manager
end PerfMonitor
