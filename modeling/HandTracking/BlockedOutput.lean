/-
A full blocking list stops all output.

The waiting loop of `MoveOutputCache` runs inside the section under `m_output_lock`,
and a consumer needs the same lock to pop.  So once a callback waits for room, no
consumer can make room, and no other group moves either.

* `Waiting`, `waiting_of_run` — a waiting callback holds the lock in front of a full
  blocking list;
* `blocked_forever` — from there, as long as the graph is not stopped, nothing is
  pushed and nothing is taken, in any group;
* `recording_blocks` — the recording layout reaches such a state after 900 records
  that nobody takes.
-/
import HandTracking.InFlightCache
import HandTracking.OutputOrder

namespace XGraph

open Transition

variable {P : Type} {L : Layout} {s s' : RunningGraph P} {a : Action P} {es es' : List Event}

/-- A callback in the waiting loop holds `m_output_lock`, and its list is a full
blocking one. -/
def Waiting (L : Layout) (s : RunningGraph P) : Prop :=
  ∀ (i : ℕ) (cb : CallBack P) f, s.callBacks[i]? = some cb → cb.pc = .waiting f →
    s.outputLock = some i ∧
    (L.cleanPolicy (L.groudIndex cb.outputPacksOrder)).cleanPolicy = .fullBlock ∧
    (L.cleanPolicy (L.groudIndex cb.outputPacksOrder)).maxDepth ≤
      (s.graph.outputStreamGroudCache (L.groudIndex cb.outputPacksOrder)).length

theorem waiting_init : Waiting L (.init : RunningGraph P) := by
  intro i cb f hi
  cases hi

/-- A step by which callback `i` comes to stand elsewhere than in the waiting loop. -/
theorem Waiting.set {i : ℕ} {cb cb' : CallBack P} (h : Waiting L s)
    (hi : s.callBacks[i]? = some cb) (hpc' : ∀ f, cb'.pc ≠ .waiting f)
    (calls : s'.callBacks = s.callBacks.set i cb')
    (hlock : ∀ j (c : CallBack P) f, j ≠ i → s.callBacks[j]? = some c → c.pc = .waiting f →
      s'.outputLock = s.outputLock ∧
        s'.graph.outputStreamGroudCache = s.graph.outputStreamGroudCache) :
    Waiting L s' := by
  intro j c f hj hpc
  rw [calls, getElem?_set_of_some hi] at hj
  split_ifs at hj with hji
  · obtain rfl := Option.some_inj.mp hj
    exact absurd hpc (hpc' f)
  · obtain ⟨hl, hout⟩ := hlock j c f hji hj hpc
    rw [hl, hout]
    exact h j c f hj hpc

/-- A callback that may enter or go on in the section under `m_output_lock` is the
only one that can be waiting there. -/
theorem Waiting.eq_of_section (h : Waiting L s) {i j f f' : ℕ} {cb c : CallBack P}
    (hi : s.callBacks[i]? = some cb)
    (pc : cb.pc = .locking f ∧ s.outputLock = none ∨ cb.pc = .waiting f)
    (hj : s.callBacks[j]? = some c) (hpc : c.pc = .waiting f') : j = i := by
  have hlock := (h j c f' hj hpc).1
  rcases pc with ⟨_, hfree⟩ | hwait
  · rw [hfree] at hlock
    cases hlock
  · rw [(h i cb f hi hwait).1] at hlock
    exact (Option.some_inj.mp hlock).symm

theorem Waiting.step (h : Waiting L s) (heff : Effect L s a es s') : Waiting L s' := by
  cases heff with
  | called =>
    intro j c f hj hpc
    rcases getElem?_concat hj with hj | ⟨_, rfl⟩
    · exact h j c f hj hpc
    · cases hpc
  | @unmatched i cb hi =>
    exact h.set hi (by simp) rfl fun _ _ _ _ _ _ => ⟨rfl, rfl⟩
  | @matched i cb f m frame hi =>
    refine h.set hi (fun f' => ?_) rfl fun _ _ _ _ _ _ => ⟨rfl, rfl⟩
    split_ifs <;> simp
  | @tested i cb f hi =>
    refine h.set hi (fun f' => ?_) rfl fun _ _ _ _ _ _ => ⟨rfl, rfl⟩
    split_ifs <;> simp
  | @pushed i cb f list hi pc =>
    refine h.set hi (by simp) rfl fun j c f' hne hj hpc => ?_
    -- another one that waits would hold the lock as well
    exact absurd (h.eq_of_section hi pc hj hpc) hne
  | @dropped i cb f hi pc =>
    refine h.set hi (by simp) rfl fun j c f' hne hj hpc => ?_
    exact absurd (h.eq_of_section hi pc hj hpc) hne
  | @waits i cb f hi pc hmove =>
    obtain ⟨hblock, _, hfull⟩ := StreamCacheCleanStrategy.move_wait hmove
    intro j c f' hj hpc
    change (s.callBacks.set i _)[j]? = some c at hj
    rw [getElem?_set_of_some hi] at hj
    split_ifs at hj with hji
    · obtain rfl := Option.some_inj.mp hj
      exact ⟨by rw [hji], hblock, hfull⟩
    · exact absurd (h.eq_of_section hi pc hj hpc) hji
  | @checked i cb hi =>
    refine h.set hi (fun f' => ?_) rfl fun _ _ _ _ _ _ => ⟨rfl, rfl⟩
    split_ifs <;> simp
  | @cleaned i cb hi =>
    exact h.set hi (by simp) rfl fun _ _ _ _ _ _ => ⟨rfl, rfl⟩
  | got _ _ free =>
    intro j c f hj hpc
    have hlock := (h j c f hj hpc).1
    rw [free] at hlock
    cases hlock
  | registered => exact h
  | notRegistered => exact h
  | cleared => exact h
  | gotNothing => exact h
  | asked => exact h
  | setGraphStarted => exact h

theorem waiting_of_run {ok : RunningGraph P → Action P → Prop} {as : List (Action P)}
    (run : Run (step L) ok .init as es s) : Waiting L s :=
  run.state_invariant (I := Waiting L) waiting_init
    fun _ _ _ _ h _ hstep => h.step (step_effect hstep)

/-! ### Nothing moves -/

/-- The graph is not stopped. -/
def NotStopped (_ : RunningGraph P) (a : Action P) : Prop := a ≠ .setGraphStarted false

instance [DecidableEq P] (s : RunningGraph P) (a : Action P) : Decidable (NotStopped s a) :=
  inferInstanceAs (Decidable (a ≠ .setGraphStarted false))

/-- From `s`, without stopping the graph, a pop of group `g` can return a frame. -/
def CanPop (L : Layout) (s : RunningGraph P) (g : ℕ) : Prop :=
  ∃ as es s' f, Run (step L) NotStopped s as es s' ∧ .got g false (some f) ∈ es

/-- From `s`, without stopping the graph, some callback can push to group `g`, or some
consumer can get a frame from it. -/
def CanMove (L : Layout) (s : RunningGraph P) (g : ℕ) : Prop :=
  ∃ as es s', Run (step L) NotStopped s as es s' ∧
    ((∃ i f, .pushed i g f ∈ es) ∨ ∃ reuse f, .got g reuse (some f) ∈ es)

/-- Callback `i` waits in a started graph. -/
structure Blocked (L : Layout) (s : RunningGraph P) (i f : ℕ) : Prop where
  started : s.graph.graphStarted = true
  waiting : Waiting L s
  blocked : ∃ cb, s.callBacks[i]? = some cb ∧ cb.pc = .waiting f

/-- A step of another callback leaves the waiting one where it is. -/
theorem Blocked.set {i f j : ℕ} {c c' : CallBack P} (h : Blocked L s i f)
    (hj : s.callBacks[j]? = some c) (hpc : ∀ f', c.pc ≠ .waiting f')
    (calls : s'.callBacks = s.callBacks.set j c') :
    ∃ cb, s'.callBacks[i]? = some cb ∧ cb.pc = .waiting f := by
  obtain ⟨cb, hi, hwait⟩ := h.blocked
  have hij : i ≠ j := by
    rintro rfl
    obtain rfl := Option.some_inj.mp (hi.symm.trans hj)
    exact hpc f hwait
  exact ⟨cb, by rw [calls, getElem?_set_of_some hj, if_neg hij, hi], hwait⟩

/-- The section under `m_output_lock` finds the list full: it can only wait on. -/
theorem Blocked.section_waits {i f j f' : ℕ} {c : CallBack P} (h : Blocked L s i f)
    (hj : s.callBacks[j]? = some c)
    (pc : c.pc = .locking f' ∧ s.outputLock = none ∨ c.pc = .waiting f') :
    j = i ∧ f' = f ∧ (L.cleanPolicy (L.groudIndex c.outputPacksOrder)).move s.graph.graphStarted
      (s.graph.outputStreamGroudCache (L.groudIndex c.outputPacksOrder)) f' = .wait := by
  obtain ⟨cb, hi, hwait⟩ := h.blocked
  obtain rfl := h.waiting.eq_of_section hj pc hi hwait
  obtain rfl := Option.some_inj.mp (hi.symm.trans hj)
  obtain ⟨hlock, hblock, hfull⟩ := h.waiting i cb f hi hwait
  refine ⟨rfl, ?_, ?_⟩
  · rcases pc with ⟨pc, _⟩ | pc
    · rw [hwait] at pc
      cases pc
    · rw [hwait] at pc
      exact (Pc.waiting.inj pc).symm
  · rw [h.started]
    exact StreamCacheCleanStrategy.move_of_full hblock hfull

/-- While a callback waits, a step that does not stop the graph leaves it waiting. -/
theorem Blocked.step {i f : ℕ} (h : Blocked L s i f) (ha : NotStopped s a)
    (heff : Effect L s a es s') : Blocked L s' i f := by
  have hwaiting := h.waiting.step heff
  obtain ⟨cb, hi, hwait⟩ := h.blocked
  cases heff with
  | called =>
    have hlt : i < s.callBacks.length := (List.getElem?_eq_some_iff.mp hi).choose
    exact ⟨h.started, hwaiting, cb, by rw [List.getElem?_append_left hlt, hi], hwait⟩
  | unmatched hj pc => exact ⟨h.started, hwaiting, h.set hj (by simp [pc]) rfl⟩
  | matched hj pc => exact ⟨h.started, hwaiting, h.set hj (by simp [pc]) rfl⟩
  | tested hj pc => exact ⟨h.started, hwaiting, h.set hj (by simp [pc]) rfl⟩
  | checked hj pc => exact ⟨h.started, hwaiting, h.set hj (by simp [pc]) rfl⟩
  | cleaned hj pc => exact ⟨h.started, hwaiting, h.set hj (by simp [pc]) rfl⟩
  | pushed hj pc hmove =>
    -- only the waiting callback is in the section, and its list is full
    rw [(h.section_waits hj pc).2.2] at hmove
    cases hmove
  | dropped hj pc hmove =>
    rw [(h.section_waits hj pc).2.2] at hmove
    cases hmove
  | @waits j c f' hj pc =>
    obtain ⟨rfl, rfl, _⟩ := h.section_waits hj pc
    exact ⟨h.started, hwaiting, _, by rw [getElem?_set_of_some hj, if_pos rfl], rfl⟩
  | got _ _ free =>
    rw [(h.waiting i cb f hi hwait).1] at free
    cases free
  | @setGraphStarted b =>
    cases b with
    | true => exact ⟨rfl, hwaiting, cb, hi, hwait⟩
    | false => exact absurd rfl ha
  | registered => exact ⟨h.started, hwaiting, cb, hi, hwait⟩
  | notRegistered => exact h
  | cleared => exact ⟨h.started, hwaiting, cb, hi, hwait⟩
  | gotNothing => exact ⟨h.started, hwaiting, cb, hi, hwait⟩
  | asked => exact ⟨h.started, hwaiting, cb, hi, hwait⟩

/-- While a callback waits, a step neither pushes nor takes a frame. -/
theorem Blocked.silent {i f : ℕ} (h : Blocked L s i f) (heff : Effect L s a es s') :
    (∀ j g f', .pushed j g f' ∉ es) ∧ ∀ g r f', .got g r (some f') ∉ es := by
  obtain ⟨cb, hi, hwait⟩ := h.blocked
  cases heff with
  | pushed hj pc hmove =>
    rw [(h.section_waits hj pc).2.2] at hmove
    cases hmove
  | got _ _ free =>
    rw [(h.waiting i cb f hi hwait).1] at free
    cases free
  | matched => exact ⟨by split_ifs <;> simp, by split_ifs <;> simp⟩
  | _ => exact ⟨by simp, by simp⟩

theorem blocked_of_run {i f : ℕ} {as : List (Action P)} (h : Blocked L s i f)
    (run : Run (step L) NotStopped s as es s') :
    Blocked L s' i f ∧ (∀ j g f', .pushed j g f' ∉ es) ∧ ∀ g r f', .got g r (some f') ∉ es := by
  refine run.invariant (P := fun es s' => Blocked L s' i f ∧ (∀ j g f', .pushed j g f' ∉ es) ∧
    ∀ g r f', .got g r (some f') ∉ es) ⟨h, by simp, by simp⟩ ?_
  rintro es s a s' es' ⟨h, hpush, hgot⟩ ha hstep
  have heff := step_effect hstep
  obtain ⟨hpush', hgot'⟩ := h.silent heff
  refine ⟨h.step ha heff, fun j g f' he => ?_, fun g r f' he => ?_⟩
  · rcases List.mem_append.mp he with he | he
    · exact hpush j g f' he
    · exact hpush' j g f' he
  · rcases List.mem_append.mp he with he | he
    · exact hgot g r f' he
    · exact hgot' g r f' he

theorem CanPop.canMove {g : ℕ} (h : CanPop L s g) : CanMove L s g := by
  obtain ⟨as, es, s', f, run, he⟩ := h
  exact ⟨as, es, s', run, Or.inr ⟨false, f, he⟩⟩

theorem Blocked.not_canMove {i f : ℕ} (h : Blocked L s i f) (g : ℕ) : ¬CanMove L s g := by
  rintro ⟨as, es, s', run, ⟨j, f', he⟩ | ⟨reuse, f', he⟩⟩
  · exact (blocked_of_run h run).2.1 _ _ _ he
  · exact (blocked_of_run h run).2.2 _ _ _ he

/-- **A full blocking list deadlocks.**  In every reachable state with the graph
started and a callback waiting for room, no continuation in which the graph is not
stopped lets a consumer pop the full list, nor any group move. -/
theorem blocked_forever {ok : RunningGraph P → Action P → Prop} {as : List (Action P)}
    (run : Run (step L) ok .init as es s) (started : s.graph.graphStarted = true) {i f : ℕ}
    {cb : CallBack P} (hi : s.callBacks[i]? = some cb) (hpc : cb.pc = .waiting f) :
    ¬CanPop L s (L.groudIndex cb.outputPacksOrder) ∧ ∀ g, ¬CanMove L s g := by
  have h : Blocked L s i f := ⟨started, waiting_of_run run, cb, hi, hpc⟩
  exact ⟨fun hpop => h.not_canMove _ hpop.canMove, h.not_canMove⟩

/-- One stream and a blocking list of depth one: two frames, and the second callback
waits. -/
def blockTwo : List (Action Unit) :=
  [.setInputStreamCache 1000 1, .setInputStreamCache 2000 2,
    .callBackInferenceResult 0 ⟨1, ()⟩, .runCallBack 0, .runCallBack 0, .runCallBack 0,
    .runCallBack 0, .callBackInferenceResult 0 ⟨2, ()⟩, .runCallBack 1, .runCallBack 1,
    .runCallBack 1]

/-- One group whose result list blocks when it holds one frame. -/
def blockLayout : Layout :=
  { Layout.baseInit ["record_result"] with outputStreamGroudCleanPolicy := [⟨.fullBlock, 1⟩] }

theorem blocked_forever_blockTwo :
    ¬CanPop blockLayout
      ((exec (step blockLayout) (Serial blockLayout) .init blockTwo).get rfl).1 0 := by
  have hi : ((exec (step blockLayout) (Serial blockLayout) .init
      blockTwo).get rfl).1.callBacks[1]? = some {
        outputPacksOrder := 0
        packet := ⟨2, ()⟩
        matched := { cache := some 1, isMove := true, isFinish := true }
        pc := .waiting 1 } := rfl
  exact (blocked_forever (Run.of_exec_get rfl) rfl hi rfl).1

/-! ### The recording layout blocks -/

/-- The recording layout with the execution info exported: the records wait in a
blocking list of depth 900. -/
def recordLayout : Layout := .handTrackingInit ["hand_result", "record_result"] true

/-- The frame of stamp `n` is registered and its record is delivered, by callback `n`. -/
def recordFrame (n : ℕ) : List (Action Unit) :=
  [.setInputStreamCache n n, .callBackInferenceResult 1 ⟨n, ()⟩, .runCallBack n,
    .runCallBack n, .runCallBack n, .runCallBack n]

theorem groudSize_recordLayout : recordLayout.groudSize ≠ 1 := by decide

/-- The record group is complete as soon as the record is there. -/
theorem groudComplete_record (c : StreamCache Unit) (p : Packet Unit)
    (hc : c.syncBitmap = 0#64) : groudComplete recordLayout (c.deliver 1 p) 1 = true := by
  rw [groudComplete, if_neg groudSize_recordLayout]
  show syncOrderBitmap (recordLayout.targetSyncBitmaps 1) (c.syncBitmap ||| (1#64) <<< 1) = true
  rw [hc]
  decide

/-- `n` records have been delivered and none was taken. -/
structure Recording (n : ℕ) (s : RunningGraph Unit) : Prop where
  started : s.graph.graphStarted = true
  free : s.outputLock = none
  calls : s.callBacks.length = n
  serial : ∀ cb ∈ s.callBacks, cb.pc = .returned ∧ cb.packet.timestamp < n
  list : (s.graph.outputStreamGroudCache 1).length = n
  stamps : ∀ t f, s.graph.inferenceStreamCache.find? t = some f → t < n
  size : s.graph.inferenceStreamCache.size < maxGlobalCacheDepth

theorem step_runCallBack {i : ℕ} {cb : CallBack P} (hi : s.callBacks[i]? = some cb) :
    step L s (.runCallBack i) = s.runCallBack L i cb := by
  rw [step, hi, Option.bind_some]

/-- The state after callback `i` has stored its packet in frame `f` and completed its
group. -/
def RunningGraph.store (s : RunningGraph P) (L : Layout) (i : ℕ) (cb : CallBack P) (f : ℕ) :
    RunningGraph P :=
  { s with
    graph := { s.graph with
      heap := Function.update s.graph.heap f
        ((s.graph.heap f).deliver cb.outputPacksOrder cb.packet)
      inferenceStreamCache :=
        if ((s.graph.heap f).deliver cb.outputPacksOrder cb.packet).full
        then s.graph.inferenceStreamCache.erase cb.packet.timestamp
        else s.graph.inferenceStreamCache }
    callBacks := s.callBacks.set i { cb with
      matched := (matchStream L s.graph cb.outputPacksOrder cb.packet).2
      pc := .moving f } }

theorem step_matching {i f : ℕ} {cb : CallBack P} (hi : s.callBacks[i]? = some cb)
    (hpc : cb.pc = .matching)
    (hf : s.graph.inferenceStreamCache.find? cb.packet.timestamp = some f)
    (hands : groudComplete L ((s.graph.heap f).deliver cb.outputPacksOrder cb.packet)
      cb.outputPacksOrder = true) :
    step L s (.runCallBack i) = some (s.store L i cb f,
      if ((s.graph.heap f).deliver cb.outputPacksOrder cb.packet).full then [.finished i f]
      else []) := by
  obtain ⟨hg, hc, hfin, hhands⟩ := matchStream_some (L := L) (o := cb.outputPacksOrder) hf
  rw [hands] at hhands
  rw [step_runCallBack hi, RunningGraph.runCallBack, RunningGraph.store]
  simp only [hpc, hg, hc, hfin, hhands, if_true]

theorem step_moving {i f : ℕ} {cb : CallBack P} (hi : s.callBacks[i]? = some cb)
    (hpc : cb.pc = .moving f) (started : s.graph.graphStarted = true) :
    step L s (.runCallBack i) = some (s.setCallBack i { cb with pc := .locking f }, []) := by
  rw [step_runCallBack hi, RunningGraph.runCallBack]
  simp only [hpc, started, if_true]

theorem step_locking {i f : ℕ} {cb : CallBack P} (hi : s.callBacks[i]? = some cb)
    (hpc : cb.pc = .locking f) (free : s.outputLock = none) :
    step L s (.runCallBack i) = some (s.moveOutputCache L i cb f) := by
  rw [step_runCallBack hi, RunningGraph.runCallBack]
  simp only [hpc, free, if_true]

theorem step_checking {i : ℕ} {cb : CallBack P} (hi : s.callBacks[i]? = some cb)
    (hpc : cb.pc = .checking) (hL : L.groudSize ≠ 1) :
    step L s (.runCallBack i) = some (s.setCallBack i { cb with pc := .returned }, []) := by
  rw [step_runCallBack hi, RunningGraph.runCallBack]
  simp only [hpc, hL, false_and, if_false]

/-- A callback whose group is complete reaches `m_output_lock` in two steps. -/
theorem run_to_lock {ok : RunningGraph P → Action P → Prop} {i f : ℕ} {cb : CallBack P}
    (hok : ∀ s, ok s (.runCallBack i)) (hi : s.callBacks[i]? = some cb) (hpc : cb.pc = .matching)
    (hf : s.graph.inferenceStreamCache.find? cb.packet.timestamp = some f)
    (hands : groudComplete L ((s.graph.heap f).deliver cb.outputPacksOrder cb.packet)
      cb.outputPacksOrder = true) (started : s.graph.graphStarted = true) :
    ∃ es s' m, Run (step L) ok s [.runCallBack i, .runCallBack i] es s' ∧
      s'.graph.graphStarted = true ∧ s'.outputLock = s.outputLock ∧
      s'.callBacks = s.callBacks.set i { cb with matched := m, pc := .locking f } ∧
      s'.graph.outputStreamGroudCache = s.graph.outputStreamGroudCache ∧
      ∀ t f, s'.graph.inferenceStreamCache.find? t = some f →
        s.graph.inferenceStreamCache.find? t = some f := by
  have hstep := step_matching (L := L) hi hpc hf hands
  have hi' : (s.store L i cb f).callBacks[i]? = some { cb with
      matched := (matchStream L s.graph cb.outputPacksOrder cb.packet).2, pc := .moving f } := by
    rw [RunningGraph.store, getElem?_set_of_some hi, if_pos rfl]
  have hmov := step_moving (L := L) hi' rfl started
  refine ⟨_, _, (matchStream L s.graph cb.outputPacksOrder cb.packet).2,
    (Run.single (hok _) hstep).trans (Run.single (hok _) hmov), started, rfl, ?_, rfl,
    fun t f' hf' => ?_⟩
  · exact List.set_set _
  · change OrderedMap.find? (if _ then _ else _) t = some f' at hf'
    split_ifs at hf'
    · rw [OrderedMap.find?_erase] at hf'
      split_ifs at hf'
      exact hf'
    · exact hf'

/-- The next frame is registered and its record reaches `m_output_lock`. -/
theorem Recording.deliver {n : ℕ} {s : RunningGraph Unit} (h : Recording n s) :
    ∃ es s' cb, Run (step recordLayout) (Serial recordLayout) s
        ((recordFrame n).take 4) es s' ∧
      s'.graph.graphStarted = true ∧ s'.outputLock = none ∧
      s'.callBacks = s.callBacks ++ [cb] ∧ cb.outputPacksOrder = 1 ∧
      cb.packet.timestamp = (n : Int) ∧ cb.pc = .locking s.graph.heapSize ∧
      s'.graph.outputStreamGroudCache = s.graph.outputStreamGroudCache ∧
      ∀ t f, s'.graph.inferenceStreamCache.find? t = some f → t < (n + 1 : ℕ) := by
  have hfresh : s.graph.inferenceStreamCache.find? (n : Int) = none := by
    refine Option.eq_none_iff_forall_ne_some.mpr fun f hf => ?_
    exact lt_irrefl _ (h.stamps _ f hf)
  -- a cache without room has an older entry to evict
  have hroom : s.graph.inferenceStreamCache.size + 1 < maxGlobalCacheDepth ∨
      ∃ t f, s.graph.inferenceStreamCache.find? t = some f ∧ t < (n : Int) := by
    refine or_iff_not_imp_left.mpr fun hfull => ?_
    have hpos : 0 < s.graph.inferenceStreamCache.size := by
      rw [maxGlobalCacheDepth] at hfull
      omega
    obtain ⟨t, f, hf⟩ := OrderedMap.exists_find?_of_size_pos hpos
    exact ⟨t, f, hf, h.stamps t f hf⟩
  obtain ⟨hfind, _⟩ := registered_of_roomFor (f := s.graph.heapSize) h.size hfresh hroom
  obtain ⟨es₁, hstep₁⟩ := step_of_fresh (L := recordLayout) n h.started hfresh
  -- the callback comes, and is the last one in the list
  let cb : CallBack Unit := { outputPacksOrder := 1, packet := ⟨n, ()⟩ }
  let s₂ : RunningGraph Unit := { s with
    graph := { s.graph with
      heap := Function.update s.graph.heap s.graph.heapSize (.init n recordLayout.outputStreamNum)
      heapSize := s.graph.heapSize + 1
      inferenceStreamCache := cleanGraphNoResultInferenceCache
        (s.graph.inferenceStreamCache.insert n s.graph.heapSize) n }
    callBacks := s.callBacks ++ [cb] }
  have hserial : Serial recordLayout { s with graph := s₂.graph }
      (.callBackInferenceResult 1 ⟨n, ()⟩) :=
    ⟨by decide, fun c hc _ => h.serial c hc⟩
  have hi₂ : s₂.callBacks[n]? = some cb := by
    show (s.callBacks ++ [cb])[n]? = some cb
    rw [← h.calls, List.getElem?_concat_length]
  have hands : groudComplete recordLayout ((s₂.graph.heap s.graph.heapSize).deliver
      cb.outputPacksOrder cb.packet) cb.outputPacksOrder = true := by
    show groudComplete recordLayout ((Function.update s.graph.heap s.graph.heapSize
      (.init n recordLayout.outputStreamNum) s.graph.heapSize).deliver 1 _) 1 = true
    rw [Function.update_self]
    exact groudComplete_record _ _ rfl
  -- it matches its frame, finds the group complete and goes on to the lock
  obtain ⟨es₂, s', m, run₂, hs', hl', hc', ho', hsub⟩ :=
    run_to_lock (fun s => show Serial recordLayout s (.runCallBack n) from trivial) hi₂ rfl hfind
      hands h.started
  have hset : Serial recordLayout s (.setInputStreamCache n n) := trivial
  have run := ((Run.single hset hstep₁).trans (Run.single hserial rfl)).trans run₂
  refine ⟨_, s', { cb with matched := m, pc := .locking s.graph.heapSize }, run, hs',
    hl'.trans h.free, ?_, rfl, rfl, rfl, ho', fun t f hf => ?_⟩
  · rw [hc']
    show (s.callBacks ++ [cb]).set n _ = _
    rw [List.set_append_right _ _ h.calls.le, h.calls, Nat.sub_self]
    rfl
  · have hin := OrderedMap.find?_eraseFrontWhile_sub (hsub t f hf)
    rw [OrderedMap.find?_insert] at hin
    split_ifs at hin with ht
    · omega
    · have := h.stamps t f hin
      omega

/-- As long as there is room, the record goes into the list. -/
theorem Recording.next {n : ℕ} {s : RunningGraph Unit} (h : Recording n s) (hn : n < 900) :
    ∃ es s', Run (step recordLayout) (Serial recordLayout) s (recordFrame n) es s' ∧
      Recording (n + 1) s' := by
  obtain ⟨es, s', cb, run, hs', hl', hc', ho, ht, hpc, hout, hstamps⟩ := h.deliver
  have hi : s'.callBacks[n]? = some cb := by
    rw [hc', ← h.calls, List.getElem?_concat_length]
  have hg : recordLayout.groudIndex cb.outputPacksOrder = 1 := by
    rw [ho]
    decide
  -- fewer than 900 frames in the list
  have hmove : (recordLayout.cleanPolicy (recordLayout.groudIndex cb.outputPacksOrder)).move
      s'.graph.graphStarted
      (s'.graph.outputStreamGroudCache (recordLayout.groudIndex cb.outputPacksOrder))
      s.graph.heapSize = .pushed (s.graph.heapSize :: s'.graph.outputStreamGroudCache 1) := by
    have hlt : ¬900 ≤ (s'.graph.outputStreamGroudCache 1).length := by
      rw [hout, h.list]
      omega
    rw [hg, hs']
    show (⟨.fullBlock, 900⟩ : StreamCacheCleanStrategy).move true _ _ = _
    simp [StreamCacheCleanStrategy.move, hlt]
  have hpush := step_locking (L := recordLayout) hi hpc hl'
  rw [RunningGraph.moveOutputCache, hmove] at hpush
  dsimp only at hpush
  have hi' : (s'.callBacks.set n { cb with pc := .checking })[n]? =
      some { cb with pc := .checking } := by
    rw [getElem?_set_of_some hi, if_pos rfl]
  -- the frame has one group only, so the callback returns
  have hret := step_checking (L := recordLayout) (s := { s' with
    graph := { s'.graph with
      outputStreamGroudCache := Function.update s'.graph.outputStreamGroudCache
        (recordLayout.groudIndex cb.outputPacksOrder)
        (s.graph.heapSize :: s'.graph.outputStreamGroudCache 1) }
    callBacks := s'.callBacks.set n { cb with pc := .checking }
    outputLock := none }) hi' rfl groudSize_recordLayout
  have hok : ∀ s, Serial recordLayout s (.runCallBack n : Action Unit) := fun _ => trivial
  have run' := (run.trans (Run.single (hok _) hpush)).trans (Run.single (hok _) hret)
  refine ⟨_, _, run', hs', rfl, ?_, fun c hc => ?_, ?_, hstamps, size_lt_run h.size run'⟩
  · show ((s'.callBacks.set n _).set n _).length = n + 1
    rw [List.length_set, List.length_set, hc', List.length_append, h.calls, List.length_singleton]
  · change c ∈ (s'.callBacks.set n _).set n _ at hc
    rw [List.set_set, hc', List.set_append_right _ _ h.calls.le, h.calls, Nat.sub_self] at hc
    rcases List.mem_append.mp hc with hc | hc
    · have := h.serial c hc
      exact ⟨this.1, by have := this.2; omega⟩
    · obtain rfl := List.mem_singleton.mp hc
      exact ⟨rfl, by show cb.packet.timestamp < _; rw [ht]; omega⟩
  · show (Function.update s'.graph.outputStreamGroudCache _ _ 1).length = n + 1
    rw [hg, Function.update_self, List.length_cons, hout, h.list]

/-- The first 900 records fill the list. -/
theorem run_recording : ∀ n ≤ 900, ∃ es s,
    Run (step recordLayout) (Serial recordLayout) .init ((List.range n).flatMap recordFrame) es s ∧
      Recording n s := by
  intro n
  induction n with
  | zero =>
    intro _
    refine ⟨[], .init, .nil, rfl, rfl, rfl, fun _ h => absurd h List.not_mem_nil, rfl,
      (fun t f hf => by cases hf), ?_⟩
    show OrderedMap.empty.size < maxGlobalCacheDepth
    rw [OrderedMap.size_empty, maxGlobalCacheDepth]
    omega
  | succ n ih =>
    intro hn
    obtain ⟨es, s, run, hrec⟩ := ih (by omega)
    obtain ⟨es', s', run', hrec'⟩ := hrec.next (by omega)
    rw [List.range_succ, List.flatMap_append, List.flatMap_singleton]
    exact ⟨_, s', run.trans run', hrec'⟩

/-- The recording layout: 900 records are delivered and none is taken.  The callback
of the next record waits for room, and the list can never be popped again. -/
theorem recording_blocks : ∃ es s cb f,
    Run (step recordLayout) (Serial recordLayout) .init
      ((List.range 900).flatMap recordFrame ++ (recordFrame 900).take 4 ++ [.runCallBack 900])
      es s ∧
    s.graph.graphStarted = true ∧ s.callBacks[900]? = some cb ∧ cb.pc = .waiting f ∧
    recordLayout.groudIndex cb.outputPacksOrder = 1 ∧
    ¬CanPop recordLayout s 1 ∧ ¬CanMove recordLayout s 0 := by
  obtain ⟨es, s, run, hrec⟩ := run_recording 900 le_rfl
  obtain ⟨es', s', cb, run', hs', hl', hc', ho, ht, hpc, hout, hstamps⟩ := hrec.deliver
  have hi : s'.callBacks[900]? = some cb := by
    rw [hc', ← hrec.calls, List.getElem?_concat_length]
  have hg : recordLayout.groudIndex cb.outputPacksOrder = 1 := by
    rw [ho]
    decide
  have hmove : (recordLayout.cleanPolicy (recordLayout.groudIndex cb.outputPacksOrder)).move
      s'.graph.graphStarted
      (s'.graph.outputStreamGroudCache (recordLayout.groudIndex cb.outputPacksOrder))
      s.graph.heapSize = .wait := by
    rw [hg, hs']
    refine StreamCacheCleanStrategy.move_of_full rfl ?_
    rw [hout, hrec.list]
    exact le_refl 900
  have hwait := step_locking (L := recordLayout) hi hpc hl'
  rw [RunningGraph.moveOutputCache, hmove] at hwait
  dsimp only at hwait
  have hok : ∀ s, Serial recordLayout s (.runCallBack 900 : Action Unit) := fun _ => trivial
  have hrun := (run.trans run').trans (Run.single (hok _) hwait)
  have hi' : (s'.callBacks.set 900 { cb with pc := .waiting s.graph.heapSize })[900]? =
      some { cb with pc := .waiting s.graph.heapSize } := by
    rw [getElem?_set_of_some hi, if_pos rfl]
  have hblocked : Blocked recordLayout { s' with
      callBacks := s'.callBacks.set 900 { cb with pc := .waiting s.graph.heapSize }
      outputLock := some 900 } 900 s.graph.heapSize :=
    ⟨hs', waiting_of_run hrun, _, hi', rfl⟩
  exact ⟨_, _, _, _, hrun, hs', hi', rfl, hg,
    fun hpop => hblocked.not_canMove 1 hpop.canMove, hblocked.not_canMove 0⟩

end XGraph
