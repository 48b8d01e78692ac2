/-
The recorder gives out its records in the order of their frames.

A stream takes packets only with increasing timestamps, and the recorder looks through its records
from the smallest on; but it can skip one that is not complete.  If the packets come in an orderly
way, it never skips: a record behind the latest image has no result yet, and one before the latest
image is given out in any case.

* `Orderly` — the image and the head pose of a frame come before its results, and after those of
  earlier frames;
* `findCanExport_eq_head` — only the smallest record is given out;
* `exports_increase` — the timestamps of all records of a run increase, also of those that are given
  out when the recording stops.
-/
import HandTracking.HandDataRecord

namespace Calculator

open Transition

namespace Packet

/-- The packet is an image. -/
def isImage : Packet → Bool
  | image _ => true
  | _ => false

/-- The packet sets one of the flags that a complete record waits for. -/
def isResult (packet : Packet) : Bool := packet.nodes.any fun n => n ∈ finishNodes

end Packet

/-- What comes later (`b`): an image is one of a later frame, a head pose one of no earlier frame
than that of an image, and neither is one of a frame that has had a result, or of one before. -/
structure InOrder (a b : ℤ × Packet) : Prop where
  image : a.2.isImage = true → b.2.isImage = true → a.1 < b.1
  add : a.2.isImage = true → b.2.isAdd = true → a.1 ≤ b.1
  result : a.2.isResult = true → b.2.isAdd = true → a.1 < b.1

instance (a b : ℤ × Packet) : Decidable (InOrder a b) :=
  decidable_of_iff ((a.2.isImage = true → b.2.isImage = true → a.1 < b.1) ∧
      (a.2.isImage = true → b.2.isAdd = true → a.1 ≤ b.1) ∧
      (a.2.isResult = true → b.2.isAdd = true → a.1 < b.1))
    ⟨fun h => ⟨h.1, h.2.1, h.2.2⟩, fun h => ⟨h.image, h.add, h.result⟩⟩

/-- Also, the image of a frame comes before its results. -/
structure Orderly (packages : List (ℤ × Packet)) : Prop where
  nonneg : ∀ a ∈ packages, 0 ≤ a.1
  inOrder : packages.Pairwise InOrder
  imageFirst : ∀ before a after, packages = before ++ a :: after → a.2.isResult = true →
    ∃ b ∈ before, b.2.isImage = true ∧ b.1 = a.1

theorem Orderly.left {packages more : List (ℤ × Packet)} (h : Orderly (packages ++ more)) :
    Orderly packages where
  nonneg a ha := h.nonneg a (List.mem_append_left more ha)
  inOrder := (List.pairwise_append.mp h.inOrder).1
  imageFirst before a after heq hresult := by
    refine h.imageFirst before a (after ++ more) ?_ hresult
    rw [heq, List.append_assoc, List.cons_append]

theorem Orderly.image_of_result {packages : List (ℤ × Packet)} (h : Orderly packages)
    {a : ℤ × Packet} (ha : a ∈ packages) (hresult : a.2.isResult = true) :
    ∃ b ∈ packages, b.2.isImage = true ∧ b.1 = a.1 := by
  obtain ⟨before, after, rfl⟩ := List.append_of_mem ha
  obtain ⟨b, hb, himage⟩ := h.imageFirst before a after rfl hresult
  exact ⟨b, List.mem_append_left _ hb, himage⟩

namespace HandDataRecordState

variable {s : HandDataRecordState} {packages : List (ℤ × Packet)} {es : List Recordcache}
  {record : Recordcache} {force : Bool} {log : Log}

/-- The record's frame has had a result, or a later frame its image: no packet makes a record for it
again. -/
def Closed (packages : List (ℤ × Packet)) (time : ℤ) : Prop :=
  ∃ a ∈ packages, (a.2.isImage = true ∧ time < a.1) ∨ (a.2.isResult = true ∧ time = a.1)

/-- All that was given out is before all that is kept, and stays so. -/
structure Ordered (packages : List (ℤ × Packet)) (es : List Recordcache)
    (s : HandDataRecordState) : Prop where
  times : (es.map Recordcache.frameTimestamp).Pairwise (· < ·)
  before : ∀ record ∈ es, ∀ e ∈ s.frameDatacache.entries, record.frameTimestamp < e.1
  closed : ∀ record ∈ es, Closed packages record.frameTimestamp
  latest : ∀ a ∈ packages, a.2.isImage = true → a.1 ≤ s.imageLatestTime
  latest_mem : s.imageLatestTime = 0 ∨ ∃ a ∈ packages, a.2.isImage = true ∧ a.1 = s.imageLatestTime
  nonneg : ∀ e ∈ s.frameDatacache.entries, 0 ≤ e.1

theorem ordered_init : Ordered [] [] init where
  times := .nil
  before _ hmem := absurd hmem List.not_mem_nil
  closed _ hmem := absurd hmem List.not_mem_nil
  latest _ hmem := absurd hmem List.not_mem_nil
  latest_mem := .inl rfl
  nonneg _ hmem := absurd hmem List.not_mem_nil

theorem Closed.append {time : ℤ} (h : Closed packages time) (more : List (ℤ × Packet)) :
    Closed (packages ++ more) time := by
  obtain ⟨a, ha, hclosed⟩ := h
  exact ⟨a, List.mem_append_left more ha, hclosed⟩

theorem Closed.lt_of_isAdd {time : ℤ} {b : ℤ × Packet} (h : Closed packages time)
    (horder : ∀ a ∈ packages, InOrder a b) (hadd : b.2.isAdd = true) : time < b.1 := by
  obtain ⟨a, ha, ⟨himage, hlt⟩ | ⟨hresult, rfl⟩⟩ := h
  · exact lt_of_lt_of_le hlt ((horder a ha).add himage hadd)
  · exact (horder a ha).result hresult hadd

/-! ### Packets -/

/-- The keys after a packet. -/
theorem key_arrive {time : ℤ} {packet : Packet} {e : ℤ × Recordcache}
    (he : e ∈ (s.arrive time packet).frameDatacache.entries) :
    (∃ e' ∈ s.frameDatacache.entries, e'.1 = e.1) ∨ (packet.isAdd = true ∧ e.1 = time) := by
  have hstore : ∀ (t : HandDataRecordState), e ∈ (t.store time packet).frameDatacache.entries →
      ∃ e' ∈ t.frameDatacache.entries, e'.1 = e.1 := by
    intro t he
    unfold HandDataRecordState.store at he
    cases hfind : t.frameDatacache.find? time with
    | none => exact ⟨e, by rwa [hfind] at he, rfl⟩
    | some record =>
      rw [hfind] at he
      obtain rfl | he := List.mem_cons.mp (OrderedMap.assign_perm_cons_erase.mem_iff.mp he)
      · exact ⟨_, OrderedMap.find?_eq_some_iff.mp hfind, rfl⟩
      · exact ⟨e, (List.mem_filter.mp he).1, rfl⟩
  have harrive : e ∈ ((if packet.isAdd then s.addCache time else s).store time
      packet).frameDatacache.entries := by
    unfold arrive at he
    cases packet <;> exact he
  obtain ⟨e', he', hkey⟩ := hstore _ harrive
  by_cases hadd : packet.isAdd = true
  · rw [if_pos hadd] at he'
    unfold HandDataRecordState.addCache at he'
    cases hfind : s.frameDatacache.find? time with
    | some record =>
      rw [hfind] at he'
      exact .inl ⟨e', he', hkey⟩
    | none =>
      rw [hfind] at he'
      obtain rfl | he' := List.mem_cons.mp ((OrderedMap.insert_perm hfind).mem_iff.mp he')
      · exact .inr ⟨hadd, hkey.symm⟩
      · exact .inl ⟨e', he', hkey⟩
  · rw [if_neg hadd] at he'
    exact .inl ⟨e', he', hkey⟩

theorem imageLatestTime_arrive (s : HandDataRecordState) (time : ℤ) (packet : Packet) :
    (s.arrive time packet).imageLatestTime =
      if packet.isImage then time else s.imageLatestTime := by
  have hadd : (if packet.isAdd then s.addCache time else s).imageLatestTime =
      s.imageLatestTime := by
    split_ifs
    · unfold HandDataRecordState.addCache
      split <;> rfl
    · rfl
  have hstore : ((if packet.isAdd then s.addCache time else s).store time
      packet).imageLatestTime = s.imageLatestTime := by
    rw [← hadd]
    unfold HandDataRecordState.store
    split <;> rfl
  unfold arrive
  cases packet <;> first | rfl | exact hstore

theorem Ordered.arrive (h : Ordered packages es s) {time : ℤ} {packet : Packet}
    (horderly : Orderly (packages ++ [(time, packet)])) :
    Ordered (packages ++ [(time, packet)]) es (s.arrive time packet) := by
  have horder : ∀ a ∈ packages, InOrder a (time, packet) := fun a ha =>
    (List.pairwise_append.mp horderly.inOrder).2.2 a ha _ (List.mem_singleton_self _)
  have hmem : (time, packet) ∈ packages ++ [(time, packet)] :=
    List.mem_append_right _ (List.mem_singleton_self _)
  refine ⟨h.times, fun record hrecord e he => ?_, fun record hrecord =>
    (h.closed record hrecord).append _, fun a ha himage => ?_, ?_, fun e he => ?_⟩
  · obtain ⟨e', he', hkey⟩ | ⟨hadd, hkey⟩ := key_arrive he
    · rw [← hkey]
      exact h.before record hrecord e' he'
    · rw [hkey]
      exact (h.closed record hrecord).lt_of_isAdd horder hadd
  · rw [imageLatestTime_arrive]
    obtain ha | ha := List.mem_append.mp ha
    · split_ifs with hpacket
      · exact ((horder a ha).image himage hpacket).le
      · exact h.latest a ha himage
    · rw [List.mem_singleton.mp ha] at himage ⊢
      rw [if_pos himage]
  · rw [imageLatestTime_arrive]
    split_ifs with hpacket
    · exact .inr ⟨_, hmem, hpacket, rfl⟩
    · obtain hzero | ⟨a, ha, himage⟩ := h.latest_mem
      · exact .inl hzero
      · exact .inr ⟨a, List.mem_append_left _ ha, himage⟩
  · obtain ⟨e', he', hkey⟩ | ⟨-, hkey⟩ := key_arrive he
    · rw [← hkey]
      exact h.nonneg e' he'
    · rw [hkey]
      exact horderly.nonneg _ hmem

theorem Ordered.foldl_arrive (h : Ordered packages es s) {more : List (ℤ × Packet)}
    (horderly : Orderly (packages ++ more)) :
    Ordered (packages ++ more) es (more.foldl (fun s a => s.arrive a.1 a.2) s) := by
  induction more generalizing packages s with
  | nil =>
    rw [List.append_nil]
    exact h
  | cons a more ih =>
    have hsplit : packages ++ a :: more = packages ++ [a] ++ more := by
      rw [List.append_assoc, List.singleton_append]
    rw [hsplit] at horderly ⊢
    exact ih (h.arrive horderly.left) horderly

/-! ### Records that are given out -/

/-- A complete record has had a result, and so the image of its frame. -/
theorem le_latest_of_complete (h : Ordered packages es s) (htraced : Traced packages log es s)
    (horderly : Orderly packages) {e : ℤ × Recordcache} (he : e ∈ s.frameDatacache.entries)
    (hcomplete : e.2.complete = true) :
    e.1 ≤ s.imageLatestTime ∧ Closed packages e.1 := by
  rw [Recordcache.complete, Bool.and_eq_true, List.all_eq_true] at hcomplete
  have hdetect : NodeStatus.detectFinish ∈ finishNodes := List.mem_cons_self
  obtain ⟨packet, htaken, hn⟩ := (htraced.marked e he).1 _ (hcomplete.2 _ hdetect)
  have hmem : (e.1, packet) ∈ packages := htraced.of.taken _ htaken
  have hresult : packet.isResult = true :=
    List.any_eq_true.mpr ⟨_, hn, decide_eq_true hdetect⟩
  obtain ⟨b, hb, himage, hkey⟩ := horderly.image_of_result hmem hresult
  refine ⟨?_, (e.1, packet), hmem, .inr ⟨hresult, rfl⟩⟩
  rw [← hkey]
  exact h.latest b hb himage

theorem closed_of_lt_latest (h : Ordered packages es s) {e : ℤ × Recordcache}
    (he : e ∈ s.frameDatacache.entries) (hlt : e.1 < s.imageLatestTime) :
    Closed packages e.1 := by
  obtain hzero | ⟨a, ha, himage, hlatest⟩ := h.latest_mem
  · have hnonneg := h.nonneg e he
    omega
  · exact ⟨a, ha, .inl ⟨himage, by rwa [hlatest]⟩⟩

/-- An entry that is not given out is not before the latest image. -/
theorem latest_le_of_canExport {e : ℤ × Recordcache} (h : s.canExport force e = none) :
    s.imageLatestTime ≤ e.1 := by
  unfold canExport at h
  split_ifs at h with _ hlt
  exact not_lt.mp hlt

/-- What is given out without force is complete, or before the latest image. -/
theorem of_canExport_false {e : ℤ × Recordcache} (h : s.canExport false e = some record) :
    e.2.complete = true ∨ e.1 < s.imageLatestTime := by
  unfold canExport at h
  split_ifs at h with hcomplete hlt hforce
  · exact .inl hcomplete
  · exact .inr hlt
  · exact absurd hforce id

/-- Only the smallest record is given out. -/
theorem findCanExport_eq_head (h : Ordered packages es s) (htraced : Traced packages log es s)
    (horderly : Orderly packages) (hexport : s.findCanExport false = some record) :
    Closed packages record.frameTimestamp ∧
      (∃ e ∈ s.frameDatacache.entries, e.1 = record.frameTimestamp) ∧
      ∀ e ∈ (s.frameDatacache.erase record.frameTimestamp).entries,
        record.frameTimestamp < e.1 := by
  obtain ⟨skipped, e, rest, hentries, hcan, hskipped⟩ := List.findSome?_eq_some_iff.mp hexport
  have hmem : e ∈ s.frameDatacache.entries := by
    rw [hentries]
    exact List.mem_append_right _ List.mem_cons_self
  obtain ⟨status, rfl⟩ := canExport_eq_some hcan
  have htime : e.2.frameTimestamp = e.1 := htraced.accounted.own e hmem
  have hsorted := s.frameDatacache.sorted
  rw [hentries] at hsorted
  obtain ⟨-, hbehind, hbefore⟩ := List.pairwise_append.mp hsorted
  have hclosed : e.1 ≤ s.imageLatestTime ∧ Closed packages e.1 := by
    obtain hcomplete | hlt := of_canExport_false hcan
    · exact le_latest_of_complete h htraced horderly hmem hcomplete
    · exact ⟨hlt.le, closed_of_lt_latest h hmem hlt⟩
  show Closed packages e.2.frameTimestamp ∧
    (∃ e' ∈ s.frameDatacache.entries, e'.1 = e.2.frameTimestamp) ∧
      ∀ e' ∈ (s.frameDatacache.erase e.2.frameTimestamp).entries, e.2.frameTimestamp < e'.1
  rw [htime]
  refine ⟨hclosed.2, ⟨e, hmem, rfl⟩, fun e' he' => ?_⟩
  obtain ⟨he', hne⟩ := List.mem_filter.mp he'
  rw [hentries] at he'
  obtain hin | hin := List.mem_append.mp he'
  · -- a smaller one would have been given out itself
    have hlatest := latest_le_of_canExport (hskipped e' hin)
    have hlt := hbefore e' hin e List.mem_cons_self
    have hle := hclosed.1
    omega
  · obtain rfl | hin := List.mem_cons.mp hin
    · exact absurd rfl (of_decide_eq_true hne)
    · exact (List.pairwise_cons.mp hbehind).1 e' hin

theorem Ordered.export (h : Ordered packages es s) (htraced : Traced packages log es s)
    (horderly : Orderly packages) (hexport : s.findCanExport false = some record) :
    Ordered packages (es ++ [record]) (s.clearHasExported record.frameTimestamp) := by
  obtain ⟨hclosed, ⟨e, he, hkey⟩, hhead⟩ := findCanExport_eq_head h htraced horderly hexport
  refine ⟨?_, ?_, ?_, h.latest, h.latest_mem, fun e he => h.nonneg e (List.mem_filter.mp he).1⟩
  · rw [List.map_append, List.map_singleton, List.pairwise_append]
    refine ⟨h.times, List.pairwise_singleton _ _, fun t ht t' ht' => ?_⟩
    obtain ⟨record', hrecord', rfl⟩ := List.mem_map.mp ht
    rw [List.mem_singleton.mp ht', ← hkey]
    exact h.before record' hrecord' e he
  · intro record' hrecord' e' he'
    obtain hrecord' | hrecord' := List.mem_append.mp hrecord'
    · exact h.before record' hrecord' e' (List.mem_filter.mp he').1
    · rw [List.mem_singleton.mp hrecord']
      exact hhead e' he'
  · intro record' hrecord'
    obtain hrecord' | hrecord' := List.mem_append.mp hrecord'
    · exact h.closed record' hrecord'
    · rw [List.mem_singleton.mp hrecord']
      exact hclosed

/-- With force, the first record is given out. -/
theorem findCanExport_true (hown : s.Own) (hexport : s.findCanExport true = some record) :
    ∃ e rest, s.frameDatacache.entries = e :: rest ∧ record.frameTimestamp = e.1 ∧
      ∀ e' ∈ rest, e.1 < e'.1 := by
  obtain ⟨skipped, e, rest, hentries, hcan, hskipped⟩ := List.findSome?_eq_some_iff.mp hexport
  have hnone : skipped = [] := by
    refine List.eq_nil_iff_forall_not_mem.mpr fun e' he' => ?_
    have hsome := canExport_true_isSome (s := s) e'
    rw [hskipped e' he'] at hsome
    cases hsome
  rw [hnone, List.nil_append] at hentries
  have hsorted := s.frameDatacache.sorted
  rw [hentries] at hsorted
  obtain ⟨status, rfl⟩ := canExport_eq_some hcan
  exact ⟨e, rest, hentries, hown e (by rw [hentries]; exact List.mem_cons_self),
    (List.pairwise_cons.mp hsorted).1⟩

theorem times_exportAll (hown : s.Own)
    (htimes : (es.map Recordcache.frameTimestamp).Pairwise (· < ·))
    (hbefore : ∀ record ∈ es, ∀ e ∈ s.frameDatacache.entries, record.frameTimestamp < e.1)
    (fuel : ℕ) :
    ((es ++ (exportAll fuel s).1).map Recordcache.frameTimestamp).Pairwise (· < ·) := by
  induction fuel generalizing es s with
  | zero => rwa [HandDataRecordState.exportAll, List.append_nil]
  | succ fuel ih =>
    unfold HandDataRecordState.exportAll
    cases hexport : s.findCanExport true with
    | none => rwa [List.append_nil]
    | some record =>
      obtain ⟨e, rest, hentries, htime, hrest⟩ := findCanExport_true hown hexport
      have hmem : e ∈ s.frameDatacache.entries := by
        rw [hentries]
        exact List.mem_cons_self
      have hmore := @ih (s.clearHasExported record.frameTimestamp) (es ++ [record])
        (fun e he => hown e (List.mem_filter.mp he).1) ?_ ?_
      · rwa [List.append_assoc, List.singleton_append] at hmore
      · rw [List.map_append, List.map_singleton, List.pairwise_append]
        refine ⟨htimes, List.pairwise_singleton _ _, fun t ht t' ht' => ?_⟩
        obtain ⟨record', hrecord', rfl⟩ := List.mem_map.mp ht
        rw [List.mem_singleton.mp ht', htime]
        exact hbefore record' hrecord' e hmem
      · intro record' hrecord' e' he'
        obtain ⟨he', hne⟩ := List.mem_filter.mp he'
        obtain hrecord' | hrecord' := List.mem_append.mp hrecord'
        · exact hbefore record' hrecord' e' he'
        · rw [List.mem_singleton.mp hrecord', htime]
          rw [hentries] at he'
          obtain rfl | he' := List.mem_cons.mp he'
          · exact absurd htime.symm (of_decide_eq_true hne)
          · exact hrest e' he'

/-! ### Runs -/

theorem Ordered.process (h : Ordered packages es s) (htraced : Traced packages log es s)
    {call : RecordCall} (hstop : call.stops = false)
    (horderly : Orderly (packages ++ call.packages)) :
    Ordered (packages ++ call.packages) (es ++ (s.process call).1) (s.process call).2 := by
  have htaken := h.foldl_arrive horderly
  rw [process_eq, hstop, if_neg Bool.false_ne_true]
  split
  next record hexport =>
    exact htaken.export (htraced.foldl_arrive call.packages) horderly hexport
  next =>
    rw [List.append_nil]
    exact htaken

theorem ordered_of_run {calls : List RecordCall}
    (run : Run step (fun _ call => call.stops = false) init calls es s)
    (horderly : Orderly (calls.flatMap RecordCall.packages)) :
    Ordered (calls.flatMap RecordCall.packages) es s := by
  induction run with
  | nil => exact ordered_init
  | @snoc calls es s call s' es' run hstop hstep ih =>
    obtain ⟨rfl, rfl⟩ := Prod.mk.inj (Option.some.inj hstep)
    rw [List.flatMap_append, List.flatMap_singleton] at horderly ⊢
    exact (ih horderly.left).process (traced_of_run run) hstop horderly

/-- If the packets come in an orderly way, the records are given out with increasing timestamps,
each frame at most once, up to and including a call that stops the recording. -/
theorem exports_increase {calls : List RecordCall}
    (run : Run step (fun _ call => call.stops = false) init calls es s) (call : RecordCall)
    (horderly : Orderly ((calls ++ [call]).flatMap RecordCall.packages)) :
    ((es ++ (s.process call).1).map Recordcache.frameTimestamp).Pairwise (· < ·) := by
  rw [List.flatMap_append, List.flatMap_singleton] at horderly
  have hordered := ordered_of_run run horderly.left
  have htraced := traced_of_run run
  cases hstop : call.stops with
  | false =>
    exact (hordered.process htraced hstop horderly).times
  | true =>
    have htaken := hordered.foldl_arrive horderly
    rw [process_eq, hstop, if_pos rfl]
    exact times_exportAll (htraced.foldl_arrive call.packages).accounted.own htaken.times
      htaken.before _

/-- A frame with all its results. -/
def firstCall : RecordCall := ⟨true, wholeFrame.map (.package 5)⟩

/-- A frame without results. -/
def secondCall : RecordCall := ⟨true, [.package 6 (.image 6), .package 6 .headPose]⟩

theorem orderly_twoCalls :
    Orderly (([firstCall, secondCall] ++ [stopCall]).flatMap RecordCall.packages) where
  nonneg := by decide
  inOrder := by decide
  imageFirst before a after heq hresult := by
    have hmem : a ∈ ([firstCall, secondCall] ++ [stopCall]).flatMap RecordCall.packages := by
      rw [heq]
      exact List.mem_append_right _ List.mem_cons_self
    have htime : ∀ a ∈ ([firstCall, secondCall] ++ [stopCall]).flatMap RecordCall.packages,
        a.2.isResult = true → a.1 = 5 := by decide
    cases before with
    | nil =>
      obtain ⟨rfl, -⟩ := List.cons.inj heq
      exact absurd hresult (by decide)
    | cons b before =>
      obtain ⟨rfl, -⟩ := List.cons.inj heq
      exact ⟨_, List.mem_cons_self, rfl, (htime a hmem hresult).symm⟩

/-- The recording stops after the second frame. -/
theorem exports_increase_twoCalls :
    let s := (init.process firstCall).2
    let s' := (s.process secondCall).2
    ((([] ++ (init.process firstCall).1 ++ (s.process secondCall).1) ++
      (s'.process stopCall).1).map Recordcache.frameTimestamp).Pairwise (· < ·) :=
  exports_increase (.snoc (.snoc .nil rfl rfl) rfl rfl) stopCall orderly_twoCalls

end HandDataRecordState

end Calculator
