/-
The recorder `HandDataRecordCalculator`.

Its inputs come as they are produced, not frame by frame.  So it keeps a record for every frame of
which it has seen the image or the head pose, lets each packet mark its node in the record of its
frame, and after each call gives out at most one record: the first of those that are complete or
older than the latest image.  A call without recording, or with an input that is closed, gives out
all of them.

* `HandDataRecordState` — the records of the frames; `process` — one call;
* `findCanExport_eq_some` — what is given out, `Exports` — and what is left then;
* `Log` — the packets that have made a record, and those that a record has taken;
* `exports_perm` — over every run, each record is given out at most once, and none is lost;
* `finished_complete` — a record that counts as finished has taken a packet of every node.
-/
import HandTracking.HandsData
import HandTracking.Library.OrderedMap
import HandTracking.Library.Transition

namespace Calculator

open Transition

/-- The nodes, and what else can be said of a record. -/
inductive NodeStatus where
  | stopForceDroped
  | asyncWaitTimeout
  | busyDiscard
  | unknown
  | inputImage
  | inputHeadpose
  | detectFinish
  | rsnFinish
  | filterFinish
  | liftFinish
  | manoFinish
  | globalFilterFinish
  | gestureFinish
  | stdhandFinish
  deriving DecidableEq, Repr

/-- The nodes from `DETECT_FINISH` on. -/
def finishNodes : List NodeStatus :=
  [.detectFinish, .rsnFinish, .filterFinish, .liftFinish, .manoFinish, .globalFilterFinish,
    .gestureFinish, .stdhandFinish]

/-- `ObjectStatus`: the step in which a hand was lost. -/
inductive ObjectStatus where
  | noMiss
  | detectMiss
  | pfMiss
  | landmarkMiss
  | liftMiss
  | hardruleMiss
  deriving DecidableEq, Repr

/-- `Recordcache`: what is collected about one frame. -/
structure Recordcache where
  sequenceId : ℕ
  rawTimeNanos : ℕ
  frameTimestamp : ℤ
  nodestatus : NodeStatus
  isGetDetectNode : Bool
  asyncNodestatus : NodeStatus → Bool
  isTrackerDetect : Bool
  camValid : Hand → Cam → Bool
  handValid : Hand → Bool
  handStatus : Hand → ObjectStatus

/-- A packet of one of the input streams, with what the record takes from it. -/
inductive Packet where
  | image (rawTimeNanos : ℕ)
  | headPose
  | detectionOutput (detFlag : Bool) (camValid : Hand → Cam → Bool)
  | kpt2d (camValid : Hand → Cam → Bool)
  /-- `kpt3d`, `kpt3d_bino` or `kpt3d_mono` -/
  | kpt3d (handValid : Hand → Bool)
  | kpt3dBlocked (handValid : Hand → Bool)
  | kpt3dWorld
  | gesture
  | handResult
  /-- Any other name. -/
  | other

namespace Packet

/-- Only these make a record for a new frame. -/
def isAdd : Packet → Bool
  | image _ => true
  | headPose => true
  | _ => false

/-- The flags that a packet sets. -/
def nodes : Packet → List NodeStatus
  | image _ => [.inputImage]
  | headPose => [.inputHeadpose]
  | detectionOutput _ _ => [.detectFinish]
  | kpt2d _ => [.rsnFinish]
  | kpt3d _ => [.filterFinish, .liftFinish]
  | kpt3dBlocked _ => [.manoFinish]
  | kpt3dWorld => [.globalFilterFinish]
  | gesture => [.gestureFinish]
  | handResult => [.stdhandFinish]
  | other => []

end Packet

/-! ### Records -/

namespace Recordcache

/-- A record as `FindCache` makes it. -/
def new (sequenceId : ℕ) (frameTimestamp : ℤ) : Recordcache where
  sequenceId := sequenceId
  rawTimeNanos := 0
  frameTimestamp := frameTimestamp
  nodestatus := .unknown
  isGetDetectNode := false
  asyncNodestatus _ := false
  isTrackerDetect := false
  camValid _ _ := false
  handValid _ := false
  handStatus _ := .noMiss

/-- The packet's nodes have finished. -/
def mark (packet : Packet) (record : Recordcache) : Recordcache :=
  { record with
    asyncNodestatus := fun n => record.asyncNodestatus n || decide (n ∈ packet.nodes) }

/-- A hand that was valid until this node is missed by it. -/
def setValid (miss : ObjectStatus) (valid : Hand → Bool) (record : Recordcache) : Recordcache :=
  { record with
    handStatus := fun hand =>
      if record.handValid hand && !valid hand then miss else record.handStatus hand
    handValid := valid }

/-- What else a packet changes in its record. -/
def write : Packet → Recordcache → Recordcache
  | .image rawTimeNanos, record => { record with nodestatus := .inputImage, rawTimeNanos }
  | .headPose, record => { record with nodestatus := .inputHeadpose }
  | .detectionOutput detFlag camValid, record =>
    let valid hand := camValid hand .lcam && camValid hand .rcam
    { record with
      isGetDetectNode := true
      isTrackerDetect := !detFlag
      camValid
      handValid := valid
      handStatus := fun hand => if valid hand then .noMiss else .detectMiss }
  | .kpt2d camValid, record =>
    record.setValid .landmarkMiss fun hand => camValid hand (ownCam hand)
  | .kpt3d valid, record => record.setValid .liftMiss valid
  | .kpt3dBlocked valid, record => record.setValid .hardruleMiss valid
  | .handResult, record => { record with nodestatus := .stdhandFinish }
  | _, record => record

/-- A packet in a record: its flags are set, and its values are written. -/
def receive (packet : Packet) (record : Recordcache) : Recordcache :=
  (record.mark packet).write packet

/-- All steps that a complete record waits for have reported. -/
def complete (record : Recordcache) : Bool :=
  record.isGetDetectNode && finishNodes.all record.asyncNodestatus

end Recordcache

/-! ### The state -/

/-- `HandDataRecordState`: the counter, the newest image and the open records. -/
structure HandDataRecordState where
  gsequenceInferenceId : ℕ
  imageLatestTime : ℤ
  frameDatacache : OrderedMap ℤ Recordcache

/-- One of the inputs of a call. -/
inductive Coll where
  | empty
  | done
  | package (time : ℤ) (packet : Packet)

/-- One call of `Process`. -/
structure RecordCall where
  /-- `CheckDeveloperDebug` -/
  isRecordStart : Bool
  inputs : List Coll

namespace HandDataRecordState

/-- Before the first call. -/
def init : HandDataRecordState := ⟨0, 0, .empty⟩

variable (s : HandDataRecordState)

/-- `FindCache` with `is_add`. -/
def addCache (time : ℤ) : HandDataRecordState :=
  match s.frameDatacache.find? time with
  | some _ => s
  | none =>
    { s with
      gsequenceInferenceId := s.gsequenceInferenceId + 1
      frameDatacache := s.frameDatacache.insert time (.new s.gsequenceInferenceId time) }

/-- The record of the frame, if there is one, takes the packet. -/
def store (time : ℤ) (packet : Packet) : HandDataRecordState :=
  match s.frameDatacache.find? time with
  | some record =>
    { s with frameDatacache := s.frameDatacache.assign time (record.receive packet) }
  | none => s

/-- One packet: a record is opened for it if it opens one, then it is written to the record of its
timestamp. -/
def arrive (time : ℤ) (packet : Packet) : HandDataRecordState :=
  let s := if packet.isAdd then s.addCache time else s
  let s := s.store time packet
  match packet with
  | .image _ => { s with imageLatestTime := time }
  | _ => s

/-- The loop over the inputs, and whether it ends at one that is closed. -/
def arrivals : List Coll → HandDataRecordState → Bool × HandDataRecordState
  | [], s => (false, s)
  | .empty :: inputs, s => arrivals inputs s
  | .done :: _, s => (true, s)
  | .package time packet :: inputs, s => arrivals inputs (s.arrive time packet)

/-- What the loop of `FindCanExport` does with a record: it may mark it, and return it. -/
def canExport (force : Bool) (entry : ℤ × Recordcache) : Option Recordcache :=
  if entry.2.complete then some entry.2
  else if entry.1 < s.imageLatestTime then
    some { entry.2 with nodestatus := .asyncWaitTimeout }
  else if force then some { entry.2 with nodestatus := .stopForceDroped }
  else none

/-- `FindCanExport`: the first record that may be exported. -/
def findCanExport (force : Bool) : Option Recordcache :=
  s.frameDatacache.entries.findSome? (s.canExport force)

/-- An exported record is erased. -/
def clearHasExported (frameTimestamp : ℤ) : HandDataRecordState :=
  { s with frameDatacache := s.frameDatacache.erase frameTimestamp }

/-- The loop that gives out all records, for at most so many of them. -/
def exportAll : ℕ → HandDataRecordState → List Recordcache × HandDataRecordState
  | 0, s => ([], s)
  | fuel + 1, s =>
    match s.findCanExport true with
    | some record =>
      let r := exportAll fuel (s.clearHasExported record.frameTimestamp)
      (record :: r.1, r.2)
    | none => ([], s)

/-- `Process`: the records that are given out, each at its own timestamp, and the state. -/
def process (call : RecordCall) : List Recordcache × HandDataRecordState :=
  if call.isRecordStart then
    let r := arrivals call.inputs s
    if r.1 then exportAll (r.2.frameDatacache.size + 1) r.2
    else
      match r.2.findCanExport false with
      | some record => ([record], r.2.clearHasExported record.frameTimestamp)
      | none => ([], r.2)
  else exportAll (s.frameDatacache.size + 1) s

/-- Each call is enabled, and its events are the records that it gives out. -/
def step (call : RecordCall) : Option (HandDataRecordState × List Recordcache) :=
  some ((s.process call).2, (s.process call).1)

/-- The records that are kept, by their timestamps. -/
def records : List Recordcache := s.frameDatacache.entries.map Prod.snd

end HandDataRecordState

/-- The packets that a call takes, in their order. -/
def Coll.packages : List Coll → List (ℤ × Packet)
  | [] => []
  | .empty :: inputs => packages inputs
  | .done :: _ => []
  | .package time packet :: inputs => (time, packet) :: packages inputs

namespace RecordCall

/-- The packets of a call that arrive while recording is on. -/
def packages (call : RecordCall) : List (ℤ × Packet) :=
  if call.isRecordStart then Coll.packages call.inputs else []

/-- The call gives out everything. -/
def stops (call : RecordCall) : Bool :=
  !call.isRecordStart || (HandDataRecordState.arrivals call.inputs .init).1

end RecordCall

namespace HandDataRecordState

variable {s s' : HandDataRecordState} {time : ℤ} {packet : Packet} {record : Recordcache}
  {force : Bool} {es : List Recordcache}

/-! ### What changes -/

@[simp] theorem receive_sequenceId (packet : Packet) (record : Recordcache) :
    (record.receive packet).sequenceId = record.sequenceId := by
  cases packet <;> rfl

@[simp] theorem receive_frameTimestamp (packet : Packet) (record : Recordcache) :
    (record.receive packet).frameTimestamp = record.frameTimestamp := by
  cases packet <;> rfl

theorem arrivals_fst (inputs : List Coll) (s s' : HandDataRecordState) :
    (arrivals inputs s).1 = (arrivals inputs s').1 := by
  induction inputs generalizing s s' with
  | nil => rfl
  | cons coll inputs ih =>
    cases coll with
    | empty => exact ih s s'
    | done => rfl
    | package time packet => exact ih _ _

theorem arrivals_snd (inputs : List Coll) (s : HandDataRecordState) :
    (arrivals inputs s).2 =
      (Coll.packages inputs).foldl (fun s a => s.arrive a.1 a.2) s := by
  induction inputs generalizing s with
  | nil => rfl
  | cons coll inputs ih =>
    cases coll with
    | empty => exact ih s
    | done => rfl
    | package time packet => exact ih _

/-- A call takes its packets, and then gives out all records or at most one. -/
theorem process_eq (s : HandDataRecordState) (call : RecordCall) :
    let t := call.packages.foldl (fun s a => s.arrive a.1 a.2) s
    s.process call =
      if call.stops then exportAll (t.frameDatacache.size + 1) t
      else
        match t.findCanExport false with
        | some record => ([record], t.clearHasExported record.frameTimestamp)
        | none => ([], t) := by
  intro t
  unfold process
  cases hrecord : call.isRecordStart with
  | true =>
    have ht : t = (arrivals call.inputs s).2 := by
      rw [arrivals_snd, ← if_pos (c := call.isRecordStart = true) hrecord
        (t := Coll.packages call.inputs) (e := [])]
      rfl
    have hstops : call.stops = (arrivals call.inputs s).1 := by
      rw [RecordCall.stops, hrecord, arrivals_fst call.inputs s .init]
      rfl
    rw [if_pos rfl, hstops, ht]
  | false =>
    have ht : t = s := by
      show (RecordCall.packages call).foldl _ s = s
      rw [RecordCall.packages, hrecord, if_neg Bool.false_ne_true]
      rfl
    have hstops : call.stops = true := by
      rw [RecordCall.stops, hrecord]
      rfl
    rw [if_neg Bool.false_ne_true, if_pos hstops, ht]

/-! ### What is given out -/

/-- Every record stands at its own timestamp. -/
def Own (s : HandDataRecordState) : Prop :=
  ∀ e ∈ s.frameDatacache.entries, e.2.frameTimestamp = e.1

theorem canExport_eq_some {e : ℤ × Recordcache} (h : s.canExport force e = some record) :
    ∃ status, record = { e.2 with nodestatus := status } := by
  unfold canExport at h
  split_ifs at h <;> cases h
  · exact ⟨e.2.nodestatus, rfl⟩
  · exact ⟨_, rfl⟩
  · exact ⟨_, rfl⟩

/-- The record comes from an entry, and this is the one that is erased. -/
theorem findCanExport_eq_some (hown : s.Own) (h : s.findCanExport force = some record) :
    ∃ e ∈ s.frameDatacache.entries, s.canExport force e = some record ∧
      record.sequenceId = e.2.sequenceId ∧ record.frameTimestamp = e.1 := by
  obtain ⟨e, he, hexport⟩ := List.exists_of_findSome?_eq_some h
  obtain ⟨status, rfl⟩ := canExport_eq_some hexport
  exact ⟨e, he, hexport, rfl, hown e he⟩

theorem canExport_true_isSome (e : ℤ × Recordcache) : (s.canExport true e).isSome = true := by
  unfold canExport
  split_ifs with hcomplete hlatest hforce
  · rfl
  · rfl
  · rfl
  · exact absurd rfl hforce

theorem findCanExport_true_eq_none (h : s.findCanExport true = none) :
    s.frameDatacache.entries = [] := by
  rw [findCanExport, List.findSome?_eq_none_iff] at h
  refine List.eq_nil_iff_forall_not_mem.mpr fun e he => ?_
  have hsome := canExport_true_isSome (s := s) e
  rw [h e he] at hsome
  cases hsome

/-! ### What becomes of the packets -/

/-- The packets so far: the timestamps of those that have made a record, one after the other, and
those that a record has taken, with the number of the record. -/
structure Log where
  opened : List ℤ
  taken : List (ℕ × ℤ × Packet)

namespace Log

variable (log : Log)

/-- The record that the packet opens, if there is none for its timestamp. -/
def addCache (s : HandDataRecordState) (time : ℤ) : Log :=
  match s.frameDatacache.find? time with
  | some _ => log
  | none => { log with opened := log.opened ++ [time] }

/-- The record that takes the packet. -/
def store (s : HandDataRecordState) (time : ℤ) (packet : Packet) : Log :=
  match s.frameDatacache.find? time with
  | some record => { log with taken := log.taken ++ [(record.sequenceId, time, packet)] }
  | none => log

/-- The log of the packet that `HandDataRecordState.arrive` takes. -/
def arrive (s : HandDataRecordState) (time : ℤ) (packet : Packet) : Log :=
  if packet.isAdd then (log.addCache s time).store (s.addCache time) time packet
  else log.store s time packet

end Log

/-- The log of the packets of a call. -/
def logPackages : Log → HandDataRecordState → List (ℤ × Packet) → Log
  | log, _, [] => log
  | log, s, (time, packet) :: packages =>
    logPackages (log.arrive s time packet) (s.arrive time packet) packages

/-- The log of all calls, and the state after them. -/
def logCalls (calls : List RecordCall) : Log × HandDataRecordState :=
  calls.foldl (fun r call => (logPackages r.1 r.2 call.packages, (r.2.process call).2))
    (⟨[], []⟩, init)

variable {log : Log} {packages : List (ℤ × Packet)}

@[simp] theorem opened_store : (log.store s time packet).opened = log.opened := by
  unfold Log.store
  split <;> rfl

@[simp] theorem taken_addCache : (log.addCache s time).taken = log.taken := by
  unfold Log.addCache
  split <;> rfl

theorem logCalls_snoc (calls : List RecordCall) (call : RecordCall) :
    logCalls (calls ++ [call]) =
      (logPackages (logCalls calls).1 (logCalls calls).2 call.packages,
        ((logCalls calls).2.process call).2) := by
  rw [logCalls, List.foldl_append]
  rfl

theorem logCalls_snd {ok : HandDataRecordState → RecordCall → Prop} {calls : List RecordCall}
    (run : Run step ok init calls es s) : (logCalls calls).2 = s := by
  induction run with
  | nil => rfl
  | snoc run _ hstep ih =>
    obtain ⟨rfl, rfl⟩ := Prod.mk.inj (Option.some.inj hstep)
    rw [logCalls_snoc, ih]

/-! ### Every record once -/

/-- The timestamp and the number of a record. -/
def numbered (record : Recordcache) : ℤ × ℕ := (record.frameTimestamp, record.sequenceId)

@[simp] theorem numbered_receive (packet : Packet) (record : Recordcache) :
    numbered (record.receive packet) = numbered record := by
  rw [numbered, receive_frameTimestamp, receive_sequenceId]
  rfl

/-- The records that have been given out and those that are kept are those that were made, each with
its timestamp and its number. -/
structure Accounted (log : Log) (es : List Recordcache) (s : HandDataRecordState) : Prop where
  own : s.Own
  count : s.gsequenceInferenceId = log.opened.length
  numbers : ((es ++ s.records).map numbered).Perm log.opened.zipIdx

theorem accounted_init : Accounted ⟨[], []⟩ [] init :=
  ⟨fun _ he => absurd he List.not_mem_nil, rfl, .refl _⟩

/-- A kept record has been made. -/
theorem Accounted.mem_opened (h : Accounted log es s) {e : ℤ × Recordcache}
    (he : e ∈ s.frameDatacache.entries) : e.1 ∈ log.opened := by
  have hmem : numbered e.2 ∈ (es ++ s.records).map numbered :=
    List.mem_map_of_mem (List.mem_append_right _ (List.mem_map_of_mem he))
  have hopened := List.fst_mem_of_mem_zipIdx (h.numbers.mem_iff.mp hmem)
  rwa [numbered, h.own e he] at hopened

theorem Accounted.addCache (h : Accounted log es s) (time : ℤ) :
    Accounted (log.addCache s time) es (s.addCache time) := by
  unfold HandDataRecordState.addCache Log.addCache
  cases hfind : s.frameDatacache.find? time with
  | some record => exact h
  | none =>
    have hperm := OrderedMap.insert_perm (v := Recordcache.new s.gsequenceInferenceId time) hfind
    refine ⟨fun e he => ?_, ?_, ?_⟩
    · obtain rfl | he := List.mem_cons.mp (hperm.mem_iff.mp he)
      · rfl
      · exact h.own e he
    · rw [List.length_append, List.length_singleton, ← h.count]
    · have hnew := ((hperm.map Prod.snd).append_left es).map numbered
      have hnumbers := h.numbers
      simp only [List.map_append, List.map_cons] at hnew hnumbers
      show ((es ++ ((s.frameDatacache.insert time _).entries.map Prod.snd)).map _).Perm
        (log.opened ++ [time]).zipIdx
      rw [List.zipIdx_append, List.map_append]
      refine hnew.trans (List.perm_middle.trans ?_)
      have hlast : numbered (Recordcache.new s.gsequenceInferenceId time) =
          (time, 0 + log.opened.length) := by
        rw [Nat.zero_add, ← h.count]
        rfl
      rw [hlast]
      exact (hnumbers.cons _).trans (List.perm_append_singleton _ _).symm

/-- A change of the kept records that takes none of their numbers away. -/
theorem Accounted.of_perm {log' : Log} (h : Accounted log es s) (hown : s'.Own)
    (hnumbers : (s'.records.map numbered).Perm (s.records.map numbered))
    (hcount : s'.gsequenceInferenceId = s.gsequenceInferenceId)
    (hopened : log'.opened = log.opened) : Accounted log' es s' := by
  refine ⟨hown, by rw [hcount, hopened, h.count], ?_⟩
  have hall := h.numbers
  rw [List.map_append] at hall ⊢
  rw [hopened]
  exact (hnumbers.append_left _).trans hall

theorem Accounted.store (h : Accounted log es s) (time : ℤ) (packet : Packet) :
    Accounted (log.store s time packet) es (s.store time packet) := by
  unfold HandDataRecordState.store
  cases hfind : s.frameDatacache.find? time with
  | none => exact h.of_perm h.own (.refl _) rfl opened_store
  | some record =>
    have hmem := OrderedMap.find?_eq_some_iff.mp hfind
    have hafter := OrderedMap.assign_perm_cons_erase (m := s.frameDatacache) (k := time)
      (v := record.receive packet)
    have hbefore := OrderedMap.perm_cons_erase hmem
    refine h.of_perm (fun e he => ?_) ?_ rfl opened_store
    · obtain rfl | he := List.mem_cons.mp (hafter.mem_iff.mp he)
      · exact (receive_frameTimestamp packet record).trans (h.own _ hmem)
      · exact h.own e (hbefore.mem_iff.mpr (List.mem_cons_of_mem _ he))
    · have hafter' := (hafter.map Prod.snd).map numbered
      rw [List.map_cons, List.map_cons, numbered_receive] at hafter'
      exact hafter'.trans ((hbefore.map Prod.snd).map numbered).symm

theorem Accounted.arrive (h : Accounted log es s) (time : ℤ) (packet : Packet) :
    Accounted (log.arrive s time packet) es (s.arrive time packet) := by
  have hstore : Accounted (log.arrive s time packet) es
      ((if packet.isAdd then s.addCache time else s).store time packet) := by
    unfold Log.arrive
    split_ifs
    · exact (h.addCache time).store time packet
    · exact h.store time packet
  unfold HandDataRecordState.arrive
  cases packet <;> exact ⟨hstore.own, hstore.count, hstore.numbers⟩

theorem Accounted.export (h : Accounted log es s) (hexport : s.findCanExport force = some record) :
    Accounted log (es ++ [record]) (s.clearHasExported record.frameTimestamp) := by
  obtain ⟨e, he, -, hid, htime⟩ := findCanExport_eq_some h.own hexport
  have hperm := OrderedMap.perm_cons_erase (k := e.1) (v := e.2) he
  refine ⟨fun e' he' => h.own e' (List.mem_filter.mp he').1, h.count, ?_⟩
  have hnumbers := h.numbers
  have hkept := ((hperm.map Prod.snd).map numbered).append_left (es.map numbered)
  have hsame : numbered record = numbered e.2 := by
    rw [numbered, numbered, hid, htime, h.own e he]
  rw [List.map_append] at hnumbers
  rw [List.append_assoc, List.map_append, List.singleton_append, List.map_cons, hsame, htime]
  exact hkept.symm.trans hnumbers

/-- The loop ends with an empty cache. -/
theorem records_exportAll (hown : s.Own) {fuel : ℕ} (hfuel : s.frameDatacache.size < fuel) :
    (exportAll fuel s).2.records = [] := by
  induction fuel generalizing s with
  | zero => omega
  | succ fuel ih =>
    unfold HandDataRecordState.exportAll
    cases hexport : s.findCanExport true with
    | none =>
      show s.frameDatacache.entries.map Prod.snd = []
      rw [findCanExport_true_eq_none hexport, List.map_nil]
    | some record =>
      obtain ⟨e, he, -, -, htime⟩ := findCanExport_eq_some hown hexport
      have hsize := (OrderedMap.perm_cons_erase (k := e.1) (v := e.2) he).length_eq
      rw [List.length_cons, ← htime] at hsize
      refine ih (fun e' he' => hown e' (List.mem_filter.mp he').1) ?_
      show (s.frameDatacache.erase record.frameTimestamp).entries.length < fuel
      have hfuel' : s.frameDatacache.entries.length < fuel + 1 := hfuel
      omega

/-! ### What the log says of the packets -/

/-- A record was made for the timestamps of the packets that may make one, and what a record has
taken came in. -/
structure Log.Of (packages : List (ℤ × Packet)) (log : Log) : Prop where
  opened : ∀ time, time ∈ log.opened ↔ ∃ packet, (time, packet) ∈ packages ∧ packet.isAdd = true
  taken : ∀ a ∈ log.taken, a.2 ∈ packages

theorem mem_opened_addCache (haccounted : Accounted log es s) {t : ℤ} :
    t ∈ (log.addCache s time).opened ↔ t ∈ log.opened ∨ t = time := by
  unfold Log.addCache
  cases hfind : s.frameDatacache.find? time with
  | some record =>
    -- the record that is there was made before
    have hmem := haccounted.mem_opened (OrderedMap.find?_eq_some_iff.mp hfind)
    exact ⟨.inl, fun h => h.elim id fun heq => heq ▸ hmem⟩
  | none => rw [List.mem_append, List.mem_singleton]

theorem mem_taken_store {a : ℕ × ℤ × Packet} (h : a ∈ (log.store s time packet).taken) :
    a ∈ log.taken ∨ a.2 = (time, packet) := by
  unfold Log.store at h
  split at h
  · obtain h | h := List.mem_append.mp h
    · exact .inl h
    · exact .inr (by rw [List.mem_singleton.mp h])
  · exact .inl h

theorem taken_subset_store : log.taken ⊆ (log.store s time packet).taken := by
  unfold Log.store
  split
  · exact List.subset_append_left _ _
  · exact List.Subset.refl _

theorem taken_subset_arrive : log.taken ⊆ (log.arrive s time packet).taken := by
  unfold Log.arrive
  split_ifs
  · have hsub : (log.addCache s time).taken ⊆
        ((log.addCache s time).store (s.addCache time) time packet).taken := taken_subset_store
    rwa [taken_addCache] at hsub
  · exact taken_subset_store

theorem Log.Of.arrive (h : log.Of packages) (haccounted : Accounted log es s) (time : ℤ)
    (packet : Packet) :
    (log.arrive s time packet).Of (packages ++ [(time, packet)]) := by
  have hopened : ∀ t, t ∈ (log.arrive s time packet).opened ↔
      t ∈ log.opened ∨ t = time ∧ packet.isAdd = true := by
    intro t
    unfold Log.arrive
    split_ifs with hadd
    · rw [opened_store, mem_opened_addCache haccounted, hadd, and_iff_left rfl]
    · rw [opened_store]
      exact ⟨.inl, fun h => h.resolve_right fun h => hadd h.2⟩
  have htaken : ∀ a ∈ (log.arrive s time packet).taken, a ∈ log.taken ∨ a.2 = (time, packet) := by
    intro a ha
    unfold Log.arrive at ha
    split_ifs at ha with hadd
    · have ha := mem_taken_store ha
      rwa [taken_addCache] at ha
    · exact mem_taken_store ha
  constructor
  · intro t
    rw [hopened, h.opened]
    constructor
    · rintro (⟨p, hp, hadd⟩ | ⟨rfl, hadd⟩)
      · exact ⟨p, List.mem_append_left _ hp, hadd⟩
      · exact ⟨packet, List.mem_append_right _ (List.mem_singleton_self _), hadd⟩
    · rintro ⟨p, hp, hadd⟩
      obtain hp | hp := List.mem_append.mp hp
      · exact .inl ⟨p, hp, hadd⟩
      · obtain ⟨rfl, rfl⟩ := Prod.mk.inj (List.mem_singleton.mp hp)
        exact .inr ⟨rfl, hadd⟩
  · intro a ha
    obtain ha | ha := htaken a ha
    · exact List.mem_append_left _ (h.taken a ha)
    · exact List.mem_append_right _ (List.mem_singleton.mpr ha)

/-! ### What a finished record has seen -/

/-- A packet of the node was taken by the record with the number. -/
def Delivered (log : Log) (sequenceId : ℕ) (time : ℤ) (n : NodeStatus) : Prop :=
  ∃ packet, (sequenceId, time, packet) ∈ log.taken ∧ n ∈ packet.nodes

theorem Delivered.mono {log' : Log} {sequenceId : ℕ} {n : NodeStatus}
    (h : Delivered log sequenceId time n) (hsub : log.taken ⊆ log'.taken) :
    Delivered log' sequenceId time n := by
  obtain ⟨packet, hmem, hn⟩ := h
  exact ⟨packet, hsub hmem, hn⟩

/-- Marks come from packets, and a record that is kept is neither too late nor dropped. -/
def Marked (log : Log) (s : HandDataRecordState) : Prop :=
  ∀ e ∈ s.frameDatacache.entries,
    (∀ n, e.2.asyncNodestatus n = true → Delivered log e.2.sequenceId e.1 n) ∧
      e.2.nodestatus ≠ .asyncWaitTimeout ∧ e.2.nodestatus ≠ .stopForceDroped

theorem receive_asyncNodestatus (packet : Packet) (record : Recordcache) (n : NodeStatus) :
    (record.receive packet).asyncNodestatus n =
      (record.asyncNodestatus n || decide (n ∈ packet.nodes)) := by
  cases packet <;> rfl

theorem receive_nodestatus (packet : Packet) (record : Recordcache) :
    (record.receive packet).nodestatus = record.nodestatus ∨
      (record.receive packet).nodestatus ∈
        [NodeStatus.inputImage, .inputHeadpose, .stdhandFinish] := by
  cases packet
  case image => exact .inr (.head _)
  case headPose => exact .inr (.tail _ (.head _))
  case handResult => exact .inr (.tail _ (.tail _ (.head _)))
  all_goals exact .inl rfl

theorem Marked.mono {log' : Log} (h : Marked log s) (hsub : log.taken ⊆ log'.taken) :
    Marked log' s :=
  fun e he => ⟨fun n hn => ((h e he).1 n hn).mono hsub, (h e he).2⟩

theorem Marked.addCache (h : Marked log s) (time : ℤ) :
    Marked (log.addCache s time) (s.addCache time) := by
  have hsame : Marked (log.addCache s time) s := h.mono (by rw [taken_addCache]; exact .refl _)
  unfold HandDataRecordState.addCache
  cases hfind : s.frameDatacache.find? time with
  | some record => exact hsame
  | none =>
    intro e he
    obtain rfl | he := List.mem_cons.mp ((OrderedMap.insert_perm hfind).mem_iff.mp he)
    · exact ⟨fun n hn => absurd hn Bool.false_ne_true, nofun, nofun⟩
    · exact hsame e he

theorem Marked.store (h : Marked log s) (time : ℤ) (packet : Packet) :
    Marked (log.store s time packet) (s.store time packet) := by
  have hsame : Marked (log.store s time packet) s := h.mono taken_subset_store
  unfold HandDataRecordState.store
  cases hfind : s.frameDatacache.find? time with
  | none => exact hsame
  | some record =>
    have hmem := OrderedMap.find?_eq_some_iff.mp hfind
    have htaken : (record.sequenceId, time, packet) ∈ (log.store s time packet).taken := by
      unfold Log.store
      rw [hfind]
      exact List.mem_append_right _ (List.mem_singleton_self _)
    intro e he
    obtain rfl | he := List.mem_cons.mp (OrderedMap.assign_perm_cons_erase.mem_iff.mp he)
    · obtain ⟨hmarks, htimeout, hforce⟩ := hsame _ hmem
      refine ⟨fun n hn => ?_, ?_⟩
      · rw [receive_asyncNodestatus, Bool.or_eq_true] at hn
        rw [receive_sequenceId]
        obtain hn | hn := hn
        · exact hmarks n hn
        · exact ⟨packet, htaken, of_decide_eq_true hn⟩
      · obtain hkept | hnew := receive_nodestatus packet record
        · exact ⟨hkept ▸ htimeout, hkept ▸ hforce⟩
        · exact ⟨fun heq => by rw [heq] at hnew; revert hnew; decide,
            fun heq => by rw [heq] at hnew; revert hnew; decide⟩
    · exact hsame e (List.mem_filter.mp he).1

theorem Marked.arrive (h : Marked log s) (time : ℤ) (packet : Packet) :
    Marked (log.arrive s time packet) (s.arrive time packet) := by
  have hstore : Marked (log.arrive s time packet)
      ((if packet.isAdd then s.addCache time else s).store time packet) := by
    unfold Log.arrive
    split_ifs
    · exact (h.addCache time).store time packet
    · exact h.store time packet
  unfold HandDataRecordState.arrive
  cases packet <;> exact hstore

theorem Marked.clear (h : Marked log s) (time : ℤ) : Marked log (s.clearHasExported time) :=
  fun e he => h e (List.mem_filter.mp he).1

/-- A record that was given out as finished has every flag, each from a packet that it has taken. -/
def Finished (log : Log) (record : Recordcache) : Prop :=
  record.nodestatus ≠ .asyncWaitTimeout → record.nodestatus ≠ .stopForceDroped →
    ∀ n ∈ finishNodes, record.asyncNodestatus n = true ∧
      Delivered log record.sequenceId record.frameTimestamp n

theorem Finished.mono {log' : Log} (h : Finished log record) (hsub : log.taken ⊆ log'.taken) :
    Finished log' record :=
  fun htimeout hforce n hn => ⟨(h htimeout hforce n hn).1, (h htimeout hforce n hn).2.mono hsub⟩

theorem Marked.finished (h : Marked log s) (hown : s.Own)
    (hexport : s.findCanExport force = some record) : Finished log record := by
  obtain ⟨e, he, hcan, hid, htime⟩ := findCanExport_eq_some hown hexport
  intro htimeout hforce n hn
  unfold canExport at hcan
  split_ifs at hcan with hcomplete <;> cases hcan
  · rw [Recordcache.complete, Bool.and_eq_true, List.all_eq_true] at hcomplete
    rw [htime]
    exact ⟨hcomplete.2 n hn, (h e he).1 n (hcomplete.2 n hn)⟩
  · exact absurd rfl htimeout
  · exact absurd rfl hforce

/-! ### Every run -/

/-- What every run keeps of its packets, its records and their log. -/
structure Traced (packages : List (ℤ × Packet)) (log : Log) (es : List Recordcache)
    (s : HandDataRecordState) : Prop where
  accounted : Accounted log es s
  marked : Marked log s
  of : log.Of packages
  finished : ∀ record ∈ es, Finished log record

theorem traced_init : Traced [] ⟨[], []⟩ [] init where
  accounted := accounted_init
  marked _ he := absurd he List.not_mem_nil
  of :=
    ⟨fun _ => ⟨fun h => absurd h List.not_mem_nil, fun ⟨_, h, _⟩ => absurd h List.not_mem_nil⟩,
      fun _ h => absurd h List.not_mem_nil⟩
  finished _ h := absurd h List.not_mem_nil

theorem Traced.arrive (h : Traced packages log es s) (time : ℤ) (packet : Packet) :
    Traced (packages ++ [(time, packet)]) (log.arrive s time packet) es (s.arrive time packet) where
  accounted := h.accounted.arrive time packet
  marked := h.marked.arrive time packet
  of := h.of.arrive h.accounted time packet
  finished record hrecord := (h.finished record hrecord).mono taken_subset_arrive

theorem Traced.foldl_arrive (h : Traced packages log es s) (more : List (ℤ × Packet)) :
    Traced (packages ++ more) (logPackages log s more) es
      (more.foldl (fun s a => s.arrive a.1 a.2) s) := by
  induction more generalizing packages log s with
  | nil =>
    rw [List.append_nil]
    exact h
  | cons a more ih =>
    have hrest := ih (h.arrive a.1 a.2)
    rwa [List.append_assoc, List.singleton_append] at hrest

theorem Traced.export (h : Traced packages log es s)
    (hexport : s.findCanExport force = some record) :
    Traced packages log (es ++ [record]) (s.clearHasExported record.frameTimestamp) where
  accounted := h.accounted.export hexport
  marked := h.marked.clear record.frameTimestamp
  of := h.of
  finished record' hrecord' := by
    obtain hold | hnew := List.mem_append.mp hrecord'
    · exact h.finished record' hold
    · rw [List.mem_singleton.mp hnew]
      exact h.marked.finished h.accounted.own hexport

theorem Traced.exportAll (h : Traced packages log es s) (fuel : ℕ) :
    Traced packages log (es ++ (exportAll fuel s).1) (exportAll fuel s).2 := by
  induction fuel generalizing es s with
  | zero => simpa only [HandDataRecordState.exportAll, List.append_nil] using h
  | succ fuel ih =>
    unfold HandDataRecordState.exportAll
    cases hexport : s.findCanExport true with
    | none => simpa only [List.append_nil] using h
    | some record =>
      have hrest := ih (h.export hexport)
      rwa [List.append_assoc, List.singleton_append] at hrest

theorem Traced.process (h : Traced packages log es s) (call : RecordCall) :
    Traced (packages ++ call.packages) (logPackages log s call.packages)
      (es ++ (s.process call).1) (s.process call).2 := by
  have htaken := h.foldl_arrive call.packages
  rw [process_eq]
  split_ifs
  · exact htaken.exportAll _
  · split
    next record hexport => exact htaken.export hexport
    next => simpa only [List.append_nil] using htaken

theorem traced_of_run {ok : HandDataRecordState → RecordCall → Prop} {calls : List RecordCall}
    (run : Run step ok init calls es s) :
    Traced (calls.flatMap RecordCall.packages) (logCalls calls).1 es s := by
  induction run with
  | nil => exact traced_init
  | @snoc calls es s call s' es' run _ hstep ih =>
    obtain ⟨rfl, rfl⟩ := Prod.mk.inj (Option.some.inj hstep)
    rw [List.flatMap_append, List.flatMap_singleton, logCalls_snoc, logCalls_snd run]
    exact ih.process call

/-- In every run, the records that were given out and those that are kept are those that were made,
one for each packet that may make one and found none at its timestamp, numbered in their order; so
none of the timestamps of these packets is missing.  A call that stops the recording gives out all
that are kept. -/
theorem exports_perm {calls : List RecordCall} (run : Run step (fun _ _ => True) init calls es s) :
    ((es ++ s.records).map numbered).Perm (logCalls calls).1.opened.zipIdx ∧
      (∀ time, time ∈ (logCalls calls).1.opened ↔
        ∃ packet, (time, packet) ∈ calls.flatMap RecordCall.packages ∧ packet.isAdd = true) ∧
      ∀ call : RecordCall, call.stops = true → (s.process call).2.records = [] ∧
        ((es ++ (s.process call).1).map numbered).Perm
          (logCalls (calls ++ [call])).1.opened.zipIdx := by
  have htraced := traced_of_run run
  refine ⟨htraced.accounted.numbers, htraced.of.opened, fun call hstop => ?_⟩
  have hempty : (s.process call).2.records = [] := by
    rw [process_eq, if_pos hstop]
    exact records_exportAll (htraced.foldl_arrive call.packages).accounted.own
      (Nat.lt_succ_self _)
  have hafter := (htraced.process call).accounted.numbers
  rw [hempty, List.append_nil] at hafter
  refine ⟨hempty, ?_⟩
  rwa [logCalls_snoc, logCalls_snd run]

/-- The recording has stopped. -/
def stopCall : RecordCall := ⟨false, []⟩

/-- A head pose that comes when the record of its frame has been given out as too late. -/
def lateHeadPose : List RecordCall :=
  [⟨true, [.package 5 (.image 5)]⟩, ⟨true, [.package 6 (.image 6)]⟩,
    ⟨true, [.package 5 .headPose]⟩]

/-- The late head pose makes a record of its own. -/
theorem exports_perm_lateHeadPose : ∃ es s,
    Run step (fun _ _ => True) init lateHeadPose es s ∧
      es.map Recordcache.frameTimestamp = [5, 5] ∧
      ((es ++ (s.process stopCall).1).map numbered).Perm [(5, 0), (6, 1), (5, 2)] := by
  have run : Run step (fun _ _ => True) init lateHeadPose _ _ :=
    .snoc (.snoc (.single trivial rfl) trivial rfl) trivial rfl
  exact ⟨_, _, run, rfl, ((exports_perm run).2.2 stopCall rfl).2⟩

/-- In every run, a record that is given out and is marked neither as too late nor as dropped
carries the flag of every node, and each was set by a packet of its frame that this record has
taken. -/
theorem finished_complete {calls : List RecordCall}
    (run : Run step (fun _ _ => True) init calls es s) (record : Recordcache)
    (hmem : record ∈ es) (htimeout : record.nodestatus ≠ .asyncWaitTimeout)
    (hforce : record.nodestatus ≠ .stopForceDroped) (n : NodeStatus) (hn : n ∈ finishNodes) :
    record.asyncNodestatus n = true ∧
      ∃ packet, (record.frameTimestamp, packet) ∈ calls.flatMap RecordCall.packages ∧
        (record.sequenceId, record.frameTimestamp, packet) ∈ (logCalls calls).1.taken ∧
        n ∈ packet.nodes := by
  have htraced := traced_of_run run
  obtain ⟨hflag, packet, htaken, hnode⟩ := htraced.finished record hmem htimeout hforce n hn
  exact ⟨hflag, packet, htraced.of.taken _ htaken, htaken, hnode⟩

/-- The packets of a frame, all in one call. -/
def wholeFrame : List Packet :=
  [.image 5, .headPose, .detectionOutput true fun _ _ => true, .kpt2d fun _ _ => true,
    .kpt3d fun _ => true, .kpt3dBlocked fun _ => true, .kpt3dWorld, .gesture, .handResult]

theorem finished_complete_wholeFrame :
    let call : RecordCall := ⟨true, wholeFrame.map (.package 5)⟩
    let record := wholeFrame.foldl (fun record packet => record.receive packet) (.new 0 5)
    (init.process call).1 = [record] ∧ ∀ n ∈ finishNodes,
      record.asyncNodestatus n = true ∧
        ∃ packet, (record.frameTimestamp, packet) ∈ [call].flatMap RecordCall.packages ∧
          (record.sequenceId, record.frameTimestamp, packet) ∈ (logCalls [call]).1.taken ∧
          n ∈ packet.nodes :=
  ⟨rfl, finished_complete (.single trivial rfl) _ (List.mem_singleton_self _) nofun nofun⟩

end HandDataRecordState

end Calculator
