import DomoticaEngine.Types
import DomoticaEngine.Formats
import DomoticaEngine.Library.Recent
import DomoticaEngine.Library.Upserts

/-!
The logs of the measuring devices.
-/

set_option autoImplicit false

namespace DomoticaEngine
open Recent Upserts

inductive LogType where
  | temperature | humidity
  deriving DecidableEq, Repr

structure DeviceLogEntry where
  ts : Int
  value : Double
  deriving DecidableEq

/-- `LOG_ENTRIES`: every 5 minutes, 24 hours. -/
def logEntries : Nat := 12*24

instance : NeZero logEntries := ⟨by decide⟩

/-- `entries_count` is the count of the array. -/
structure DeviceLog where
  device : DeviceId
  type : LogType
  entries : Shifted DeviceLogEntry logEntries
  deriving DecidableEq

def DeviceLog.entriesCount (log : DeviceLog) : Nat := log.entries.count

def deviceLogsLookup (deviceLogs : List DeviceLog) (device : DeviceId) (type : LogType) :
    Option Nat :=
  deviceLogs.findIdx? (fun log => log.device = device ∧ log.type = type)

/-- `calloc` clears the entries. -/
def deviceLogCreate (device : DeviceId) (type : LogType) : DeviceLog :=
  { device := device, type := type, entries := .blank logEntries ⟨0,.finite false 0⟩ }

def DeviceLog.insert (ts : Int) (value : Double) (log : DeviceLog) : DeviceLog :=
  { log with entries := log.entries.insert ⟨ts,value⟩ }

def deviceLogAdd (device : DeviceId) (type : LogType) (ts : Int) (value : Double)
    (deviceLogs : List DeviceLog) : List DeviceLog :=
  match deviceLogsLookup deviceLogs device type with
  | some i => deviceLogs.modify i (DeviceLog.insert ts value)
  | none =>
    (deviceLogs ++ [deviceLogCreate device type]).modify deviceLogs.length
      (DeviceLog.insert ts value)

/-- A call of `device_log_add`. -/
structure LogAdd where
  device : DeviceId
  type : LogType
  ts : Int
  value : Double

def LogAdd.entry (add : LogAdd) : DeviceLogEntry := ⟨add.ts,add.value⟩

def deviceLogsAfter (adds : List LogAdd) : List DeviceLog :=
  adds.foldl (fun logs add => deviceLogAdd add.device add.type add.ts add.value logs) []

def DeviceLog.pair (log : DeviceLog) : DeviceId × LogType := (log.device,log.type)

def LogAdd.pair (add : LogAdd) : DeviceId × LogType := (add.device,add.type)

def logsOf (pair : DeviceId × LogType) (logs : List DeviceLog) : List DeviceLog :=
  under DeviceLog.pair pair logs

def addsTo (pair : DeviceId × LogType) (adds : List LogAdd) : List LogAdd :=
  adds.filter (fun add => add.pair = pair)

def LogAdd.update (add : LogAdd) : (DeviceId × LogType) × (DeviceLog → DeviceLog) :=
  (add.pair,DeviceLog.insert add.ts add.value)

def newLog (pair : DeviceId × LogType) : DeviceLog := deviceLogCreate pair.1 pair.2

theorem deviceLogAdd_upsert (add : LogAdd) (logs : List DeviceLog) :
    deviceLogAdd add.device add.type add.ts add.value logs =
      upsert DeviceLog.pair newLog add.pair (DeviceLog.insert add.ts add.value) logs := by
  have hpair : ∀ log : DeviceLog, (log.device = add.device ∧ log.type = add.type) ↔
      log.pair = add.pair := by
    intro log
    simp [DeviceLog.pair,LogAdd.pair]
  rw [upsert_lookup,deviceLogAdd,deviceLogsLookup]
  simp only [hpair]
  cases logs.findIdx? (fun log => log.pair = add.pair) with
  | some i => rfl
  | none => exact List.modifyTailIdx_add _ 0 logs [newLog add.pair]

theorem deviceLogsAfter_run (adds : List LogAdd) :
    deviceLogsAfter adds = run DeviceLog.pair newLog (adds.map LogAdd.update) [] := by
  unfold deviceLogsAfter run
  rw [List.foldl_map]
  exact List.foldl_ext _ _ [] (fun logs add _ => deviceLogAdd_upsert add logs)

theorem inserts_entries (adds : List LogAdd) (log : DeviceLog) :
    (adds.foldl (fun log add => log.insert add.ts add.value) log).entries =
      (adds.map LogAdd.entry).foldl (fun s a => s.insert a) log.entries := by
  induction adds generalizing log with
  | nil => rfl
  | cons add adds ih => exact ih _

theorem inserts_contents (adds : List LogAdd) (pair : DeviceId × LogType) :
    (adds.foldl (fun log add => log.insert add.ts add.value) (newLog pair)).entries.contents =
      ((adds.map LogAdd.entry).reverse).take logEntries := by
  have hblank : (newLog pair).entries.contents = [] := contents_blank _
  rw [inserts_entries,contents_inserts,hblank,List.append_nil]

theorem logsOf_after (pair : DeviceId × LogType) (adds : List LogAdd) :
    logsOf pair (deviceLogsAfter adds) =
      if addsTo pair adds = [] then []
      else [(addsTo pair adds).foldl (fun log add => log.insert add.ts add.value)
        (newLog pair)] := by
  have hupdates : updatesOf pair (adds.map LogAdd.update) =
      (addsTo pair adds).map (fun add => DeviceLog.insert add.ts add.value) := by
    simp only [updatesOf,addsTo,List.filter_map,List.map_map]
    rfl
  have hrun := under_run DeviceLog.pair newLog (fun _ => rfl) pair (adds.map LogAdd.update) (by
    intro op hop b
    obtain ⟨add,-,rfl⟩ := List.mem_map.mp hop
    rfl)
  simp only [hupdates,List.foldl_map,List.map_eq_nil_iff] at hrun
  rw [logsOf,deviceLogsAfter_run,hrun]

/-- There is one log of the device and type when anything was added to it, and it holds the
newest entries, newest first. -/
def KeepsNewest (logs : List DeviceLog) (pair : DeviceId × LogType) (added : List LogAdd) : Prop :=
  if added = [] then logsOf pair logs = []
  else ∃ log, logsOf pair logs = [log] ∧
    log.entriesCount = min added.length logEntries ∧
    log.entries.cells.take log.entriesCount =
      ((added.map LogAdd.entry).reverse).take (min added.length logEntries)

/-- Adds to other devices and types are not among the ones that a log depends on. -/
theorem device_logs_newest (adds : List LogAdd) (pair : DeviceId × LogType) :
    KeepsNewest (deviceLogsAfter adds) pair (addsTo pair adds) ∧
      ∀ add : LogAdd, add.pair ≠ pair →
        logsOf pair (deviceLogsAfter (adds ++ [add])) = logsOf pair (deviceLogsAfter adds) := by
  constructor
  · have hlogs := logsOf_after pair adds
    unfold KeepsNewest
    by_cases hnone : addsTo pair adds = []
    · rw [if_pos hnone] at hlogs ⊢
      exact hlogs
    · rw [if_neg hnone] at hlogs ⊢
      have hentries := inserts_entries (addsTo pair adds) (newLog pair)
      refine ⟨_,hlogs,?_,?_⟩
      · rw [DeviceLog.entriesCount,hentries,count_inserts,List.length_map]
        rfl
      · change Shifted.contents _ = _
        have hlength : ((addsTo pair adds).map LogAdd.entry).reverse.length =
            (addsTo pair adds).length := by simp
        rw [inserts_contents,← hlength,Nat.min_comm,← List.take_eq_take_min]
  · intro add hadd
    have hsame : addsTo pair (adds ++ [add]) = addsTo pair adds := by
      simp [addsTo,hadd]
    rw [logsOf_after,logsOf_after,hsame]

end DomoticaEngine
