/-
The pool of image buffers.

`RequestMemBlob` takes the lock twice: to look for a free block of the very size, and to count a new
one.  Between the two it tests the budget and allocates without the lock.  A block comes back to the
free blocks when the last pointer to it goes, at any moment.

* `poolStep` — the steps of the threads, on a heap that gives out disjoint regions;
* `Inv.run` — counter, names and blocks fit together in every run, and nothing wraps around;
* `CountsWithin` — a block is counted while there is room for it; with this, and only with this, the
  pool stays within its budget (`sound_iff_countsWithin`);
* `CountsFirst` — a condition on the schedule that is enough for it: no other thread counts a block
  between a thread's test and its count (`sound_of_scheduled`);
* `run_requestMemBlob` — a request that nothing interrupts is such a run;
* `requestMemBlob_handedOut_iff` — which requests get a block while all blocks are free.
-/
import HandTracking.Library.Heap
import HandTracking.Library.Numerals
import HandTracking.Library.OrderedMap
import HandTracking.Library.Schedule
import Mathlib.Data.String.Basic
import Std.Data.String.ToNat

namespace Base

open Transition

/-- The addresses of the machine. -/
abbrev addressLimit : ℕ := 2 ^ 64

/-- `XrMem`: a block of memory. -/
structure XrMem where
  addr : ℕ
  size : BitVec 64
  deriving DecidableEq, Repr

/-- The addresses of a block. -/
def XrMem.region (v : XrMem) : Region := ⟨v.addr, v.size.toNat⟩

/-- `FixedMembuffer`: the count of the bytes and the free blocks, by their names. -/
structure FixedMembuffer where
  moduleName : String
  keyId : BitVec 64
  cacheSize : BitVec 64
  warningSize : BitVec 64
  freeCache : OrderedMap String XrMem

namespace FixedMembuffer

/-- The constructor. -/
def new (name : String) (warningsize : BitVec 64) : FixedMembuffer :=
  ⟨name, 0, 0, warningsize, .empty⟩

/-- The first free block of the requested size, in the order of the names. -/
def reusable (b : FixedMembuffer) (allocSize : BitVec 64) : Option (String × XrMem) :=
  b.freeCache.entries.find? fun e => e.2.size = allocSize

/-- A block is taken out of the cache. -/
def take (b : FixedMembuffer) (k : String) : FixedMembuffer :=
  { b with freeCache := b.freeCache.erase k }

/-- The test of the budget; the sum may wrap around. -/
def OverBudget (b : FixedMembuffer) (allocSize : BitVec 64) : Prop :=
  b.warningSize < b.cacheSize + allocSize

instance (b : FixedMembuffer) (allocSize : BitVec 64) : Decidable (b.OverBudget allocSize) :=
  inferInstanceAs (Decidable (_ < _))

/-- The name of a new block. -/
def blobName (b : FixedMembuffer) (keyId : ℕ) : String := b.moduleName ++ toString keyId

/-- Counts a new block. -/
def count (b : FixedMembuffer) (allocSize : BitVec 64) : FixedMembuffer :=
  { b with keyId := b.keyId + 1, cacheSize := b.cacheSize + allocSize }

/-- The deleter of the shared pointer. -/
def giveBack (b : FixedMembuffer) (memName : String) (mem : XrMem) : FixedMembuffer :=
  { b with freeCache := b.freeCache.assign memName mem }

end FixedMembuffer

/-- A block that is handed out: the name that its deleter has captured, and the size that was
requested with it. -/
structure Blob where
  memName : String
  mem : XrMem
  requested : BitVec 64
  deriving DecidableEq, Repr

/-- Where a thread is in `RequestMemBlob`: no free block has the size, the budget allows a new one,
the new one is not counted yet. -/
inductive Requester where
  | idle
  | missed (allocSize : BitVec 64)
  | passed (allocSize : BitVec 64)
  | allocated (allocSize : BitVec 64) (mem : XrMem)

/-- The pool, with the blocks that were handed out, the threads that ask for one, and the allocator.
-/
structure MemPool (Tid : Type) where
  buffer : FixedMembuffer
  held : List Blob
  requester : Tid → Requester
  heap : Heap addressLimit

/-- `allocate` carries the address that `new` finds, if it does not throw. -/
inductive PoolAction (Tid : Type) where
  | lookup (t : Tid) (allocSize : BitVec 64)
  | test (t : Tid)
  | allocate (t : Tid) (addr : Option ℕ)
  | count (t : Tid)
  | release (blob : Blob)
  deriving DecidableEq

/-- How a request ends. -/
inductive PoolEvent where
  | handedOut (blob : Blob)
  | nullptr (allocSize : BitVec 64)
  | threw (allocSize : BitVec 64)
  deriving DecidableEq, Repr

section Code

variable {Tid : Type} [DecidableEq Tid]

namespace MemPool

/-- A new pool. -/
def initial (name : String) (warningsize : BitVec 64) : MemPool Tid :=
  ⟨.new name warningsize, [], fun _ => .idle, .empty⟩

/-- A thread goes on. -/
def setRequester (s : MemPool Tid) (t : Tid) (r : Requester) : MemPool Tid :=
  { s with requester := Function.update s.requester t r }

/-- A block is handed out. -/
def handOut (s : MemPool Tid) (buffer : FixedMembuffer) (blob : Blob) :
    MemPool Tid × List PoolEvent :=
  ({ s with buffer := buffer, held := blob :: s.held }, [.handedOut blob])

end MemPool

/-- One step: a thread looks into the cache, tests the budget, allocates, counts or releases. -/
def poolStep (s : MemPool Tid) : PoolAction Tid → Option (MemPool Tid × List PoolEvent)
  | .lookup t allocSize =>
    match s.requester t with
    | .idle =>
      match s.buffer.reusable allocSize with
      | some (k, v) => some (s.handOut (s.buffer.take k) ⟨k, v, allocSize⟩)
      | none => some (s.setRequester t (.missed allocSize), [])
    | _ => none
  | .test t =>
    match s.requester t with
    | .missed allocSize =>
      if s.buffer.OverBudget allocSize then some (s.setRequester t .idle, [.nullptr allocSize])
      else some (s.setRequester t (.passed allocSize), [])
    | _ => none
  | .allocate t addr =>
    match s.requester t, addr with
    | .passed allocSize, none => some (s.setRequester t .idle, [.threw allocSize])
    | .passed allocSize, some a =>
      if fits : s.heap.Fits ⟨a, allocSize.toNat⟩ then
        some ({ s with heap := s.heap.alloc _ fits }.setRequester t
          (.allocated allocSize ⟨a, allocSize⟩), [])
      else none
    | _, _ => none
  | .count t =>
    match s.requester t with
    | .allocated allocSize mem =>
      some ((s.setRequester t .idle).handOut (s.buffer.count allocSize)
        ⟨s.buffer.blobName s.buffer.keyId.toNat, mem, allocSize⟩)
    | _ => none
  | .release blob =>
    if blob ∈ s.held then
      some ({ s with
        buffer := s.buffer.giveBack blob.memName blob.mem
        held := s.held.erase blob }, [])
    else none

/-- Any interleaving of any threads. -/
abbrev PoolRun (Tid : Type) [DecidableEq Tid] (name : String) (warningsize : BitVec 64) :=
  Run poolStep (fun _ _ => True) (MemPool.initial name warningsize : MemPool Tid)

/-- A new block is counted while the budget still has room for it. -/
def CountsWithin (s : MemPool Tid) : PoolAction Tid → Prop
  | .count t =>
    match s.requester t with
    | .allocated allocSize _ =>
      s.buffer.cacheSize.toNat + allocSize.toNat ≤ s.buffer.warningSize.toNat
    | _ => True
  | _ => True

/-- The test of the budget by this thread. -/
def PoolAction.isTestOf (t : Tid) : PoolAction Tid → Bool
  | .test t' => t' = t
  | _ => false

/-- A step that counts a new block. -/
def PoolAction.isCount : PoolAction Tid → Bool
  | .count _ => true
  | _ => false

/-- Between its test of the budget and its count, a thread that counts was the only one to do so. -/
def CountsFirst (as : List (PoolAction Tid)) : PoolAction Tid → Prop
  | .count t => ∀ a ∈ since (PoolAction.isTestOf t) as, a.isCount = false
  | _ => True

instance (as : List (PoolAction Tid)) : DecidablePred (CountsFirst as)
  | .count t =>
    inferInstanceAs (Decidable (∀ a ∈ since (PoolAction.isTestOf t) as, a.isCount = false))
  | .lookup _ _ | .test _ | .allocate _ _ | .release _ => isTrue trivial

end Code

/-! ### What is to hold in every state -/

section Invariants

variable {Tid : Type}

namespace MemPool

/-- The blocks in existence with their names: first the free ones, then those handed out. -/
def blocks (s : MemPool Tid) : List (String × XrMem) :=
  s.buffer.freeCache.entries ++ s.held.map fun blob => (blob.memName, blob.mem)

/-- What is wanted of a state. -/
structure Sound (s : MemPool Tid) : Prop where
  counted : s.buffer.cacheSize.toNat = (s.blocks.map fun e => e.2.size.toNat).sum
  budget : s.buffer.cacheSize.toNat ≤ s.buffer.warningSize.toNat
  notBoth : ∀ e ∈ s.buffer.freeCache.entries, ∀ blob ∈ s.held, e.2.addr ≠ blob.mem.addr
  oneHolder : (s.held.map fun blob => blob.mem.addr).Nodup
  requested : ∀ blob ∈ s.held, blob.mem.size = blob.requested
  names : (s.blocks.map Prod.fst).Nodup

/-- What the code keeps in every run.  The block of a thread that has not counted it yet is in the
heap and not among the blocks. -/
structure Inv (s : MemPool Tid) : Prop where
  regions : (s.blocks.map fun e => e.2.region).Nodup
  names : (s.blocks.map Prod.fst).Nodup
  named : ∀ e ∈ s.blocks, ∃ i < s.blocks.length, e.1 = s.buffer.blobName i
  keyId : s.buffer.keyId.toNat = s.blocks.length
  counted : s.buffer.cacheSize.toNat = (s.blocks.map fun e => e.2.size.toNat).sum
  alive : ∀ e ∈ s.blocks, e.2.region ∈ s.heap.regions
  pending : ∀ t allocSize mem, s.requester t = .allocated allocSize mem →
    mem.size = allocSize ∧ mem.region ∈ s.heap.regions ∧ ∀ e ∈ s.blocks, e.2.region ≠ mem.region
  apart : ∀ t t' n n' mem mem', s.requester t = .allocated n mem →
    s.requester t' = .allocated n' mem' → mem.region = mem'.region → t = t'
  requested : ∀ blob ∈ s.held, blob.mem.size = blob.requested

end MemPool

end Invariants

/-! ### One step -/

section Step

variable {Tid : Type} {s s' : MemPool Tid} {es : List PoolEvent}

namespace MemPool

/-- The regions of the blocks, as the heap knows them. -/
theorem map_size_region (l : List (String × XrMem)) :
    (l.map fun e => e.2.region).map Region.size = l.map fun e => e.2.size.toNat := by
  rw [List.map_map]
  rfl

theorem mem_blocks_held {blob : Blob} (hb : blob ∈ s.held) :
    (blob.memName, blob.mem) ∈ s.blocks :=
  List.mem_append_right _ (List.mem_map_of_mem hb)

theorem Inv.initial (name : String) (warningsize : BitVec 64) :
    Inv (MemPool.initial name warningsize : MemPool Tid) where
  regions := List.nodup_nil
  names := List.nodup_nil
  named := by simp [blocks, MemPool.initial, FixedMembuffer.new, OrderedMap.empty]
  keyId := rfl
  counted := rfl
  alive := by simp [blocks, MemPool.initial, FixedMembuffer.new, OrderedMap.empty]
  pending := by simp [MemPool.initial]
  apart := by simp [MemPool.initial]
  requested := by simp [MemPool.initial]

/-- Steps that move blocks between the free ones and those handed out, and count none. -/
theorem Inv.of_perm (h : Inv s) (hperm : s'.blocks.Perm s.blocks)
    (hname : s'.buffer.moduleName = s.buffer.moduleName)
    (hkey : s'.buffer.keyId = s.buffer.keyId)
    (hcache : s'.buffer.cacheSize = s.buffer.cacheSize) (hheap : s'.heap = s.heap)
    (hreq : ∀ t n mem, s'.requester t = .allocated n mem → s.requester t = .allocated n mem)
    (hsize : ∀ blob ∈ s'.held, blob.mem.size = blob.requested) : Inv s' where
  regions := (hperm.map _).nodup_iff.mpr h.regions
  names := (hperm.map _).nodup_iff.mpr h.names
  named := by
    intro e he
    obtain ⟨i, hi, hei⟩ := h.named e (hperm.mem_iff.mp he)
    refine ⟨i, hperm.length_eq ▸ hi, ?_⟩
    rw [hei, FixedMembuffer.blobName, FixedMembuffer.blobName, hname]
  keyId := by rw [hkey, h.keyId, hperm.length_eq]
  counted := by rw [hcache, h.counted, (hperm.map _).sum_eq]
  alive := by
    intro e he
    rw [hheap]
    exact h.alive e (hperm.mem_iff.mp he)
  pending := by
    intro t n mem ht
    obtain ⟨hsz, hmem, hne⟩ := h.pending t n mem (hreq t n mem ht)
    rw [hheap]
    exact ⟨hsz, hmem, fun e he => hne e (hperm.mem_iff.mp he)⟩
  apart := by
    intro t t' n n' mem mem' ht ht'
    exact h.apart t t' n n' mem mem' (hreq _ _ _ ht) (hreq _ _ _ ht')
  requested := hsize

theorem Inv.release (h : Inv s) {blob : Blob} (hb : blob ∈ s.held) :
    Inv { s with
      buffer := s.buffer.giveBack blob.memName blob.mem
      held := s.held.erase blob } := by
  have hfresh : ∀ e ∈ s.buffer.freeCache.entries, e.1 ≠ blob.memName := by
    intro e he
    have hnames := h.names
    rw [blocks, List.map_append, List.nodup_append'] at hnames
    exact fun heq => hnames.2.2 (List.mem_map_of_mem he)
      (heq ▸ List.mem_map_of_mem (List.mem_map_of_mem hb))
  have hheld := (List.perm_cons_erase hb).map fun blob => (blob.memName, blob.mem)
  have hperm := ((OrderedMap.assign_perm (v := blob.mem) hfresh).append_right
    ((s.held.erase blob).map fun blob => (blob.memName, blob.mem))).trans
      (List.perm_middle.symm.trans (hheld.symm.append_left _))
  refine h.of_perm hperm rfl rfl rfl rfl (fun _ _ _ => id) ?_
  exact fun blob' hb' => h.requested blob' (List.mem_of_mem_erase hb')

variable {t : Tid} {r : Requester} {allocSize : BitVec 64} {mem : XrMem}

theorem mem_of_reusable {k : String} {v : XrMem} (h : s.buffer.reusable allocSize = some (k, v)) :
    (k, v) ∈ s.buffer.freeCache.entries ∧ v.size = allocSize :=
  ⟨List.mem_of_find?_eq_some h, by simpa using List.find?_some h⟩

theorem Inv.reuse (h : Inv s) {k : String} {v : XrMem}
    (hfind : s.buffer.reusable allocSize = some (k, v)) :
    Inv (s.handOut (s.buffer.take k) ⟨k, v, allocSize⟩).1 := by
  obtain ⟨hmem, hsize⟩ := mem_of_reusable hfind
  have hperm : (s.handOut (s.buffer.take k) ⟨k, v, allocSize⟩).1.blocks.Perm s.blocks :=
    List.perm_middle.trans
      ((OrderedMap.perm_cons_erase hmem).symm.append_right _)
  refine h.of_perm hperm rfl rfl rfl rfl (fun _ _ _ => id) ?_
  exact List.forall_mem_cons.mpr ⟨hsize, h.requested⟩

/-- Memory is finite: a region beside the blocks wraps neither counter around. -/
theorem Inv.add_lt (h : Inv s) {heap : Heap addressLimit} {region : Region}
    (hregion : region ∈ heap.regions) (hheap : ∀ r ∈ s.heap.regions, r ∈ heap.regions)
    (hne : ∀ e ∈ s.blocks, e.2.region ≠ region) :
    s.buffer.cacheSize.toNat + region.size < addressLimit ∧
      s.buffer.keyId.toNat + 1 < addressLimit := by
  have hn : (region :: s.blocks.map fun e => e.2.region).Nodup := by
    refine List.nodup_cons.mpr ⟨fun hin => ?_, h.regions⟩
    obtain ⟨e, he, heq⟩ := List.mem_map.mp hin
    exact hne e he heq
  have hsub : ∀ r ∈ region :: s.blocks.map fun e => e.2.region, r ∈ heap.regions := by
    refine List.forall_mem_cons.mpr ⟨hregion, fun r hr => ?_⟩
    obtain ⟨e, he, rfl⟩ := List.mem_map.mp hr
    exact hheap _ (h.alive e he)
  have hpos : 0 < addressLimit := Nat.two_pow_pos 64
  have hsum := Heap.sum_size_lt hpos hn hsub
  have hlen := Heap.length_lt hpos hn hsub
  rw [List.map_cons, List.sum_cons, map_size_region, ← h.counted] at hsum
  rw [List.length_cons, List.length_map, ← h.keyId] at hlen
  exact ⟨Nat.add_comm .. ▸ hsum, hlen⟩

theorem Inv.count_lt (h : Inv s) (ht : s.requester t = .allocated allocSize mem) :
    s.buffer.cacheSize.toNat + allocSize.toNat < addressLimit ∧
      s.buffer.keyId.toNat + 1 < addressLimit := by
  obtain ⟨rfl, hmem, hne⟩ := h.pending t allocSize mem ht
  exact h.add_lt hmem (fun _ => id) hne

/-- Where there is memory for the block, the test of the budget does not wrap around. -/
theorem Inv.overBudget_iff (h : Inv s) {a : ℕ} (fits : s.heap.Fits ⟨a, allocSize.toNat⟩) :
    s.buffer.OverBudget allocSize ↔
      s.buffer.warningSize.toNat < s.buffer.cacheSize.toNat + allocSize.toNat := by
  have hnew : (⟨a, allocSize.toNat⟩ : Region) ∈ (s.heap.alloc _ fits).regions := List.mem_cons_self
  have hlt := (h.add_lt hnew (fun _ => List.mem_cons_of_mem _)
    fun e he heq => Heap.not_mem_of_fits fits (heq ▸ h.alive e he)).1
  rw [FixedMembuffer.OverBudget, BitVec.lt_def, BitVec.toNat_add, Nat.mod_eq_of_lt hlt]

theorem cacheSize_count (h : Inv s) (ht : s.requester t = .allocated allocSize mem) :
    (s.buffer.count allocSize).cacheSize.toNat =
      s.buffer.cacheSize.toNat + allocSize.toNat := by
  rw [FixedMembuffer.count, BitVec.toNat_add, Nat.mod_eq_of_lt (h.count_lt ht).1]

variable [DecidableEq Tid] {action : PoolAction Tid}

@[simp] theorem requester_setRequester (t' : Tid) :
    (s.setRequester t r).requester t' = if t' = t then r else s.requester t' :=
  Function.update_apply ..

/-- Steps of a thread that do not end with a block to count. -/
theorem Inv.setRequester (h : Inv s) (hr : ∀ n mem, r ≠ .allocated n mem) :
    Inv (s.setRequester t r) := by
  refine h.of_perm (.refl _) rfl rfl rfl rfl ?_ h.requested
  intro t' n mem ht'
  rw [requester_setRequester] at ht'
  split at ht'
  · exact absurd ht' (hr n mem)
  · exact ht'

theorem Inv.allocate (h : Inv s) {a : ℕ} (fits : s.heap.Fits ⟨a, allocSize.toNat⟩) :
    Inv ({ s with heap := s.heap.alloc _ fits }.setRequester t
      (.allocated allocSize ⟨a, allocSize⟩)) where
  regions := h.regions
  names := h.names
  named := h.named
  keyId := h.keyId
  counted := h.counted
  alive := fun e he => List.mem_cons_of_mem _ (h.alive e he)
  pending := by
    intro t' n mem ht'
    rw [requester_setRequester] at ht'
    split at ht'
    · cases ht'
      refine ⟨rfl, List.mem_cons_self, fun e he heq => Heap.not_mem_of_fits fits ?_⟩
      have halive := h.alive e he
      rwa [heq] at halive
    · obtain ⟨hsize, hmem, hne⟩ := h.pending t' n mem ht'
      exact ⟨hsize, List.mem_cons_of_mem _ hmem, hne⟩
  apart := by
    -- the new region is none of those that other threads wait to count
    have hnew : ∀ t' n mem, s.requester t' = .allocated n mem →
        mem.region ≠ ⟨a, allocSize.toNat⟩ := fun t' n mem ht' heq =>
      Heap.not_mem_of_fits fits (heq ▸ (h.pending t' n mem ht').2.1)
    intro t' t'' n' n'' mem' mem'' ht' ht'' heq
    rw [requester_setRequester] at ht' ht''
    split at ht' <;> split at ht''
    · next h' h'' => rw [h', h'']
    · cases ht'
      exact absurd heq.symm (hnew _ _ _ ht'')
    · cases ht''
      exact absurd heq (hnew _ _ _ ht')
    · exact h.apart t' t'' n' n'' mem' mem'' ht' ht'' heq
  requested := h.requested

theorem Inv.count (h : Inv s) (ht : s.requester t = .allocated allocSize mem) :
    Inv ((s.setRequester t .idle).handOut (s.buffer.count allocSize)
      ⟨s.buffer.blobName s.buffer.keyId.toNat, mem, allocSize⟩).1 := by
  obtain ⟨hsize, hmem, hne⟩ := h.pending t allocSize mem ht
  set name := s.buffer.blobName s.buffer.keyId.toNat with hname
  set s' := ((s.setRequester t .idle).handOut (s.buffer.count allocSize) ⟨name, mem, allocSize⟩).1
  have hperm : s'.blocks.Perm ((name, mem) :: s.blocks) := List.perm_middle
  -- the requests of the other threads are as before
  have hreq : ∀ t' n mem', s'.requester t' = .allocated n mem' →
      t' ≠ t ∧ s.requester t' = .allocated n mem' := by
    intro t' n mem' ht'
    have hs' : s'.requester t' = (s.setRequester t .idle).requester t' := rfl
    rw [hs', requester_setRequester] at ht'
    split at ht'
    · cases ht'
    · next hne => exact ⟨hne, ht'⟩
  have hlen : s'.blocks.length = s.blocks.length + 1 := hperm.length_eq
  constructor
  · refine (hperm.map _).nodup_iff.mpr (List.nodup_cons.mpr ⟨fun hin => ?_, h.regions⟩)
    obtain ⟨e, he, heq⟩ := List.mem_map.mp hin
    exact hne e he heq
  · refine (hperm.map _).nodup_iff.mpr (List.nodup_cons.mpr ⟨fun hin => ?_, h.names⟩)
    obtain ⟨e, he, heq⟩ := List.mem_map.mp hin
    obtain ⟨i, hi, hei⟩ := h.named e he
    have hi' : toString i = toString s.buffer.keyId.toNat :=
      (String.append_right_inj _).mp (hei.symm.trans heq)
    rw [Nat.toString_eq_repr, Nat.toString_eq_repr, Nat.repr_inj, h.keyId] at hi'
    exact hi.ne hi'
  · intro e he
    rw [hlen]
    rcases List.mem_cons.mp (hperm.mem_iff.mp he) with rfl | he
    · exact ⟨s.buffer.keyId.toNat, by rw [h.keyId]; exact Nat.lt_succ_self _, rfl⟩
    · obtain ⟨i, hi, hei⟩ := h.named e he
      exact ⟨i, Nat.lt_succ_of_lt hi, hei⟩
  · have hkey : s'.buffer.keyId.toNat = (s.buffer.keyId + 1).toNat := rfl
    have hlt := (h.count_lt ht).2
    rw [hkey, hlen, BitVec.toNat_add, ← h.keyId]
    exact Nat.mod_eq_of_lt hlt
  · have hcache : s'.buffer.cacheSize.toNat = (s.buffer.count allocSize).cacheSize.toNat := rfl
    rw [hcache, cacheSize_count h ht, h.counted, (hperm.map _).sum_eq, List.map_cons,
      List.sum_cons, hsize, Nat.add_comm]
  · intro e he
    rcases List.mem_cons.mp (hperm.mem_iff.mp he) with rfl | he
    · exact hmem
    · exact h.alive e he
  · intro t' n mem' ht'
    obtain ⟨htt, ht'⟩ := hreq t' n mem' ht'
    obtain ⟨hsize', hmem', hne'⟩ := h.pending t' n mem' ht'
    refine ⟨hsize', hmem', fun e he heq => ?_⟩
    rcases List.mem_cons.mp (hperm.mem_iff.mp he) with rfl | he
    · exact htt (h.apart t' t n allocSize mem' mem ht' ht heq.symm)
    · exact hne' e he heq
  · intro t' t'' n' n'' mem' mem'' ht' ht'' heq
    exact h.apart t' t'' n' n'' mem' mem'' (hreq _ _ _ ht').2 (hreq _ _ _ ht'').2 heq
  · exact List.forall_mem_cons.mpr ⟨hsize, h.requested⟩

theorem Inv.step (h : Inv s) (hs : poolStep s action = some (s', es)) : Inv s' := by
  cases action with
  | lookup t allocSize =>
    simp only [poolStep] at hs
    split at hs
    · split at hs
      · next hfind =>
        cases hs
        exact h.reuse hfind
      · cases hs
        exact h.setRequester (by simp)
    · cases hs
  | test t =>
    simp only [poolStep] at hs
    split at hs
    · split at hs
      · cases hs
        exact h.setRequester (by simp)
      · cases hs
        exact h.setRequester (by simp)
    · cases hs
  | allocate t addr =>
    simp only [poolStep] at hs
    split at hs
    · cases hs
      exact h.setRequester (by simp)
    · split at hs
      · cases hs
        exact h.allocate _
      · cases hs
    · cases hs
  | count t =>
    simp only [poolStep] at hs
    split at hs
    · next ht =>
      cases hs
      exact h.count ht
    · cases hs
  | release blob =>
    simp only [poolStep] at hs
    split at hs
    · next hb =>
      cases hs
      exact h.release hb
    · cases hs

/-- Only counting a new block takes from the budget. -/
theorem Inv.budget_step (h : Inv s) (hs : poolStep s action = some (s', es))
    (hbudget : s.buffer.cacheSize.toNat ≤ s.buffer.warningSize.toNat) :
    s'.buffer.cacheSize.toNat ≤ s'.buffer.warningSize.toNat ↔ CountsWithin s action := by
  cases action with
  | lookup t allocSize =>
    simp only [poolStep] at hs
    split at hs
    · split at hs <;> cases hs <;> exact iff_of_true hbudget trivial
    · cases hs
  | test t =>
    simp only [poolStep] at hs
    split at hs
    · split at hs <;> cases hs <;> exact iff_of_true hbudget trivial
    · cases hs
  | allocate t addr =>
    simp only [poolStep] at hs
    split at hs
    · cases hs
      exact iff_of_true hbudget trivial
    · split at hs
      · cases hs
        exact iff_of_true hbudget trivial
      · cases hs
    · cases hs
  | count t =>
    simp only [poolStep] at hs
    split at hs
    · next ht =>
      cases hs
      simp only [CountsWithin, ht]
      exact (cacheSize_count h ht) ▸ Iff.rfl
    · cases hs
  | release blob =>
    simp only [poolStep] at hs
    split at hs
    · cases hs
      exact iff_of_true hbudget trivial
    · cases hs

end MemPool

end Step

/-! ### The schedule -/

section Schedule

variable {Tid : Type} {s s' : MemPool Tid} {es : List PoolEvent}

namespace MemPool

/-- What its test promises a thread until it counts the block. -/
def Room (s : MemPool Tid) (t : Tid) : Prop :=
  match s.requester t with
  | .passed allocSize => ¬s.buffer.OverBudget allocSize
  | .allocated allocSize _ =>
    s.buffer.cacheSize.toNat + allocSize.toNat ≤ s.buffer.warningSize.toNat
  | _ => True

variable {t : Tid} {r : Requester}

theorem room_passed {allocSize : BitVec 64} (ht : s.requester t = .passed allocSize) :
    s.Room t ↔ ¬s.buffer.OverBudget allocSize := by
  unfold Room
  rw [ht]

theorem room_allocated {allocSize : BitVec 64} {mem : XrMem}
    (ht : s.requester t = .allocated allocSize mem) :
    s.Room t ↔ s.buffer.cacheSize.toNat + allocSize.toNat ≤ s.buffer.warningSize.toNat := by
  unfold Room
  rw [ht]

theorem Room.of_eq (h : s.Room t) (hcache : s'.buffer.cacheSize = s.buffer.cacheSize)
    (hwarning : s'.buffer.warningSize = s.buffer.warningSize)
    (hreq : s'.requester t = s.requester t) : s'.Room t := by
  unfold Room FixedMembuffer.OverBudget at *
  rwa [hreq, hcache, hwarning]

variable [DecidableEq Tid] {action : PoolAction Tid}

/-- Another thread goes on, or the thread itself gives its request up. -/
theorem Room.setRequester (h : s.Room t) {t' : Tid}
    (hr : t = t' → r = .idle ∨ ∃ n, r = .missed n) : (s.setRequester t' r).Room t := by
  by_cases ht : t = t'
  · unfold Room
    rw [requester_setRequester, if_pos ht]
    rcases hr ht with rfl | ⟨n, rfl⟩ <;> trivial
  · exact h.of_eq rfl rfl (by rw [requester_setRequester, if_neg ht])

/-- The test lets a thread pass only if there is room. -/
theorem room_of_test (htest : action.isTestOf t = true)
    (hs : poolStep s action = some (s', es)) : s'.Room t := by
  cases action with
  | test t' =>
    obtain rfl : t' = t := of_decide_eq_true htest
    simp only [poolStep] at hs
    split at hs
    · split at hs
      · cases hs
        simp [Room]
      · next hover =>
        cases hs
        exact (room_passed (by rw [requester_setRequester, if_pos rfl])).mpr hover
    · cases hs
  | _ => cases htest

/-- The room lasts while nobody counts a block. -/
theorem Inv.room_step (h : Inv s) (hroom : s.Room t) (htest : action.isTestOf t = false)
    (hcount : action.isCount = false) (hs : poolStep s action = some (s', es)) : s'.Room t := by
  cases action with
  | lookup t' allocSize =>
    simp only [poolStep] at hs
    split at hs
    · split at hs
      · cases hs
        exact hroom.of_eq rfl rfl rfl
      · cases hs
        exact hroom.setRequester fun _ => .inr ⟨_, rfl⟩
    · cases hs
  | test t' =>
    have hne : t ≠ t' := fun heq => absurd htest (by simp [PoolAction.isTestOf, heq])
    simp only [poolStep] at hs
    split at hs
    · split at hs <;> cases hs <;> exact hroom.setRequester fun heq => absurd heq hne
    · cases hs
  | allocate t' addr =>
    simp only [poolStep] at hs
    split at hs
    · cases hs
      exact hroom.setRequester fun _ => .inl rfl
    · next allocSize a hpassed =>
      split at hs
      · next fits =>
        cases hs
        by_cases ht : t = t'
        · subst ht
          -- only now the sum of the test is known not to have wrapped around
          rw [room_passed hpassed, h.overBudget_iff fits, not_lt] at hroom
          exact (room_allocated (by rw [requester_setRequester, if_pos rfl])).mpr hroom
        · exact hroom.of_eq rfl rfl (by rw [requester_setRequester, if_neg ht])
      · cases hs
    · cases hs
  | count t' => cases hcount
  | release blob =>
    simp only [poolStep] at hs
    split at hs
    · cases hs
      exact hroom.of_eq rfl rfl rfl
    · cases hs

end MemPool

end Schedule

/-! ### Whole runs -/

section Runs

variable {Tid : Type} {s : MemPool Tid}

namespace MemPool

/-- Two blocks of the heap with one address are one block. -/
theorem Inv.addr_injOn (h : Inv s) {e e' : String × XrMem} (he : e ∈ s.blocks) (he' : e' ∈ s.blocks)
    (heq : e.2.addr = e'.2.addr) : e = e' := by
  have hregion := Heap.addr_injOn (h.alive e he) (h.alive e' he') heq
  exact List.inj_on_of_nodup_map h.regions he he' hregion

/-- All that is wanted beside the budget holds. -/
theorem Inv.sound_iff_budget (h : Inv s) :
    s.Sound ↔ s.buffer.cacheSize.toNat ≤ s.buffer.warningSize.toNat := by
  refine ⟨Sound.budget, fun hbudget => ⟨h.counted, hbudget, ?_, ?_, h.requested, h.names⟩⟩
  · intro e he blob hb heq
    have hnames := h.names
    rw [blocks, List.map_append, List.nodup_append'] at hnames
    have hee := h.addr_injOn (List.mem_append_left _ he) (mem_blocks_held hb) heq
    refine hnames.2.2 (List.mem_map_of_mem he) ?_
    rw [hee]
    exact List.mem_map_of_mem (List.mem_map_of_mem hb)
  · have hnames := h.names
    rw [blocks, List.map_append, List.nodup_append', List.map_map] at hnames
    refine List.pairwise_map.mpr ((List.pairwise_map.mp hnames.2.1).imp_of_mem ?_)
    intro blob blob' hb hb' hne heq
    exact hne (congrArg Prod.fst (h.addr_injOn (mem_blocks_held hb) (mem_blocks_held hb') heq))

variable [DecidableEq Tid] {name : String} {warningsize : BitVec 64} {as : List (PoolAction Tid)}
  {es : List PoolEvent}

theorem Inv.run (run : PoolRun Tid name warningsize as es s) : Inv s :=
  run.state_invariant (Inv.initial name warningsize) fun _ _ _ _ h _ hs => h.step hs

end MemPool

/-- The pool is as it should be in every state of a run, if and only if every new block is counted
while the budget still has room for it. -/
theorem sound_iff_countsWithin [DecidableEq Tid] {name : String} {warningsize : BitVec 64}
    {as : List (PoolAction Tid)} {es : List PoolEvent} :
    (Run poolStep (fun s _ => s.Sound) (MemPool.initial name warningsize) as es s ∧ s.Sound) ↔
      Run poolStep CountsWithin (MemPool.initial name warningsize) as es s := by
  refine Run.always_iff (I := MemPool.Inv) ?_ (fun as es s run => MemPool.Inv.run run) ?_
  · exact (MemPool.Inv.initial name warningsize).sound_iff_budget.mpr (Nat.zero_le _)
  · intro s a s' es' h hsound hs
    rw [(h.step hs).sound_iff_budget]
    exact h.budget_step hs hsound.budget

/-- A thread that passed the test has room for its block, if nobody counted one since. -/
theorem room_run [DecidableEq Tid] {name : String} {warningsize : BitVec 64}
    {as : List (PoolAction Tid)} {es : List PoolEvent} (run : PoolRun Tid name warningsize as es s)
    {t : Tid} (hcount : ∀ a ∈ since (PoolAction.isTestOf t) as, a.isCount = false) : s.Room t := by
  have hinv := run.strengthen (I := MemPool.Inv) fun _ _ _ r => MemPool.Inv.run r
  refine hinv.since_invariant
    (I := fun w s => (∀ a ∈ w, a.isCount = false) → s.Room t) ?_ ?_ ?_ hcount
  · exact fun _ => trivial
  · exact fun s a s' es' htest _ hs _ => MemPool.room_of_test htest hs
  · intro w s a s' es' ih htest h hs hw
    obtain ⟨ha, hw⟩ := List.forall_mem_cons.mp hw
    exact h.2.room_step (ih hw) htest ha hs

/-- The pool is as it should be in every state of a run in which no other thread counts a block
between the test of a thread and its count. -/
theorem sound_of_scheduled [DecidableEq Tid] {name : String} {warningsize : BitVec 64}
    {as : List (PoolAction Tid)} {es : List PoolEvent} (run : PoolRun Tid name warningsize as es s)
    (hfirst : Scheduled CountsFirst as) :
    Run poolStep (fun s _ => s.Sound) (MemPool.initial name warningsize) as es s ∧ s.Sound := by
  rw [sound_iff_countsWithin]
  refine run.of_scheduled ?_ hfirst
  intro as es s a run _ ha
  cases a with
  | count t =>
    have hroom := room_run run ha
    cases hreq : s.requester t with
    | allocated allocSize mem =>
      simp only [CountsWithin, hreq]
      exact (MemPool.room_allocated hreq).mp hroom
    | idle | missed | passed => simp only [CountsWithin, hreq]
  | _ => trivial

/-- Three threads at once, a block released in between, and no room for the third. -/
theorem sound_of_scheduled_three :
    ∃ s : MemPool (Fin 3), s.Sound ∧ s.buffer.cacheSize = 90 ∧ s.held.length = 1 := by
  let as : List (PoolAction (Fin 3)) :=
    [.lookup 0 60, .lookup 1 30, .test 0, .lookup 2 20, .allocate 0 (some 16), .count 0, .test 1,
      .release ⟨"grayscale_pic0", ⟨16, 60⟩, 60⟩, .allocate 1 (some 160), .count 1, .test 2]
  have run : PoolRun (Fin 3) "grayscale_pic" 100 as _ _ := Run.of_exec_get (by decide)
  exact ⟨_, (sound_of_scheduled run (by decide)).2, by decide, by decide⟩

/-- Two threads test before either of them counts. -/
theorem not_sound_of_two_tests :
    ¬∀ (as : List (PoolAction (Fin 2))) (es : List PoolEvent) (s : MemPool (Fin 2)),
      PoolRun (Fin 2) "grayscale_pic" 100 as es s → s.Sound := by
  intro h
  let as : List (PoolAction (Fin 2)) :=
    [.lookup 0 60, .lookup 1 60, .test 0, .test 1, .allocate 0 (some 16), .allocate 1 (some 160),
      .count 0, .count 1]
  have run : PoolRun (Fin 2) "grayscale_pic" 100 as _ _ := Run.of_exec_get (by decide)
  exact absurd (h _ _ _ run).budget (by decide)

end Runs

/-! ### A request that nothing interrupts -/

section Serial

variable {Tid : Type}

/-- `RequestMemBlob`, while no other thread does anything; `addr` is what `new` finds. -/
def requestMemBlob (s : MemPool Tid) (allocSize : BitVec 64) (addr : Option ℕ) :
    Option (MemPool Tid × List PoolEvent) :=
  match s.buffer.reusable allocSize with
  | some (k, v) => some (s.handOut (s.buffer.take k) ⟨k, v, allocSize⟩)
  | none =>
    if s.buffer.OverBudget allocSize then some (s, [.nullptr allocSize])
    else
      match addr with
      | none => some (s, [.threw allocSize])
      | some a =>
        if fits : s.heap.Fits ⟨a, allocSize.toNat⟩ then
          some ({ s with heap := s.heap.alloc _ fits }.handOut (s.buffer.count allocSize)
            ⟨s.buffer.blobName s.buffer.keyId.toNat, ⟨a, allocSize⟩, allocSize⟩)
        else none

variable {s s' : MemPool Tid} {es : List PoolEvent} {allocSize : BitVec 64} {addr : Option ℕ}

theorem reusable_isSome_iff :
    (∃ k v, s.buffer.reusable allocSize = some (k, v)) ↔
      ∃ e ∈ s.buffer.freeCache.entries, e.2.size = allocSize := by
  constructor
  · rintro ⟨k, v, hfind⟩
    obtain ⟨hmem, hsize⟩ := MemPool.mem_of_reusable hfind
    exact ⟨(k, v), hmem, hsize⟩
  · rintro ⟨e, he, hsize⟩
    have hsome : (s.buffer.reusable allocSize).isSome :=
      List.find?_isSome.mpr ⟨e, he, decide_eq_true hsize⟩
    obtain ⟨⟨k, v⟩, hfind⟩ := Option.isSome_iff_exists.mp hsome
    exact ⟨k, v, hfind⟩

/-- When all blocks are free, a request gets one exactly if a free block has the very size, or if
there is room for a new block beside all the free ones and memory for it. -/
theorem MemPool.Inv.handedOut_iff (h : s.Inv) (hheld : s.held = []) :
    (∃ s' blob, requestMemBlob s allocSize addr = some (s', [.handedOut blob])) ↔
      (∃ e ∈ s.buffer.freeCache.entries, e.2.size = allocSize) ∨
        (s.buffer.freeCache.entries.map fun e => e.2.size.toNat).sum + allocSize.toNat ≤
            s.buffer.warningSize.toNat ∧
          ∃ a, addr = some a ∧ s.heap.Fits ⟨a, allocSize.toNat⟩ := by
  have hsum := h.counted
  rw [MemPool.blocks, hheld, List.map_nil, List.append_nil] at hsum
  rw [← hsum, ← reusable_isSome_iff]
  unfold requestMemBlob
  cases hfind : s.buffer.reusable allocSize with
  | some e => exact iff_of_true ⟨_, _, rfl⟩ (.inl ⟨e.1, e.2, rfl⟩)
  | none =>
    rw [or_iff_right (by simp)]
    cases addr with
    | none =>
      by_cases hb : s.buffer.OverBudget allocSize
      · simp [hb]
      · simp [hb]
    | some a =>
      by_cases fits : s.heap.Fits ⟨a, allocSize.toNat⟩
      · have hover := h.overBudget_iff fits
        by_cases hb : s.buffer.OverBudget allocSize
        · have hlt := hover.mp hb
          simp [hb, hlt.not_ge]
        · have hle := not_lt.mp fun hlt => hb (hover.mpr hlt)
          simp [hb, fits, hle, MemPool.handOut]
      · simp [fits]

section Thread

variable [DecidableEq Tid] {t : Tid}

theorem setRequester_setRequester (r r' : Requester) :
    (s.setRequester t r).setRequester t r' = s.setRequester t r' := by
  unfold MemPool.setRequester
  rw [Function.update_idem]

theorem setRequester_idle (ht : s.requester t = .idle) : s.setRequester t .idle = s := by
  unfold MemPool.setRequester
  rw [← ht, Function.update_eq_self]

/-- A request that nothing interrupts is a run of its thread, within the budget. -/
theorem run_requestMemBlob (h : s.Inv) (ht : s.requester t = .idle)
    (hcall : requestMemBlob s allocSize addr = some (s', es)) :
    ∃ as, Run poolStep CountsWithin s as es s' := by
  unfold requestMemBlob at hcall
  cases hfind : s.buffer.reusable allocSize with
  | some e =>
    rw [hfind] at hcall
    -- a free block of the size ends the request at once
    refine ⟨[.lookup t allocSize], .single trivial ?_⟩
    rw [poolStep, ht, hfind]
    exact hcall
  | none =>
    rw [hfind] at hcall
    have hmissed : Run poolStep CountsWithin s [.lookup t allocSize] []
        (s.setRequester t (.missed allocSize)) :=
      .single trivial (by simp only [poolStep, ht, hfind])
    -- otherwise the budget is tested, and then the memory allocated and counted
    by_cases hb : s.buffer.OverBudget allocSize
    · simp only [if_pos hb] at hcall
      cases hcall
      have htest : poolStep (s.setRequester t (.missed allocSize)) (.test t) =
          some (s, [.nullptr allocSize]) := by
        simp only [poolStep, MemPool.requester_setRequester, if_pos]
        refine (if_pos hb).trans (congrArg (fun s => some (s, [PoolEvent.nullptr allocSize])) ?_)
        rw [setRequester_setRequester, setRequester_idle ht]
      exact ⟨_, hmissed.snoc (show CountsWithin _ (.test t) from trivial) htest⟩
    · simp only [if_neg hb] at hcall
      have htest : poolStep (s.setRequester t (.missed allocSize)) (.test t) =
          some (s.setRequester t (.passed allocSize), []) := by
        simp only [poolStep, MemPool.requester_setRequester, if_pos]
        refine (if_neg hb).trans (congrArg (fun s => some (s, [])) ?_)
        rw [setRequester_setRequester]
      have hpassed := hmissed.snoc (show CountsWithin _ (.test t) from trivial) htest
      cases addr with
      | none =>
        cases hcall
        have hthrow : poolStep (s.setRequester t (.passed allocSize)) (.allocate t none) =
            some (s, [.threw allocSize]) := by
          simp only [poolStep, MemPool.requester_setRequester, if_pos]
          rw [setRequester_setRequester, setRequester_idle ht]
        exact ⟨_, hpassed.snoc (show CountsWithin _ (.allocate t none) from trivial) hthrow⟩
      | some a =>
        by_cases fits : s.heap.Fits ⟨a, allocSize.toNat⟩
        · simp only [dif_pos fits] at hcall
          cases hcall
          set s₁ : MemPool Tid := { s with heap := s.heap.alloc _ fits }
          set mem : XrMem := ⟨a, allocSize⟩
          have hnew : poolStep (s.setRequester t (.passed allocSize)) (.allocate t (some a)) =
              some (s₁.setRequester t (.allocated allocSize mem), []) := by
            simp only [poolStep, MemPool.requester_setRequester, if_pos]
            exact (dif_pos fits).trans
              (congrArg (fun s => some (s, [])) (setRequester_setRequester (s := s₁) _ _))
          have hcount : poolStep (s₁.setRequester t (.allocated allocSize mem)) (.count t) =
              some (s₁.handOut (s.buffer.count allocSize)
                ⟨s.buffer.blobName s.buffer.keyId.toNat, mem, allocSize⟩) := by
            simp only [poolStep, MemPool.requester_setRequester, if_pos]
            rw [setRequester_setRequester, setRequester_idle (s := s₁) ht]
            rfl
          -- nothing came between the test and the count
          have hwithin :
              CountsWithin (s₁.setRequester t (.allocated allocSize mem)) (.count t) := by
            simp only [CountsWithin, MemPool.requester_setRequester, if_pos]
            exact not_lt.mp fun hlt => hb ((h.overBudget_iff fits).mpr hlt)
          have hallocated := hpassed.snoc
            (show CountsWithin _ (.allocate t (some a)) from trivial) hnew
          exact ⟨_, hallocated.snoc hwithin hcount⟩
        · simp only [dif_neg fits] at hcall
          cases hcall

/-- After any requests and releases, while all blocks are free: a request gets a block exactly if a
free one has the very size, or if there is room for a new one beside all the free ones and `new`
finds memory for it. -/
theorem requestMemBlob_handedOut_iff {name : String} {warningsize : BitVec 64}
    {as : List (PoolAction Tid)} {es : List PoolEvent} (run : PoolRun Tid name warningsize as es s)
    (hheld : s.held = []) (allocSize : BitVec 64) (addr : Option ℕ) :
    (∃ s' blob, requestMemBlob s allocSize addr = some (s', [.handedOut blob])) ↔
      (∃ e ∈ s.buffer.freeCache.entries, e.2.size = allocSize) ∨
        (s.buffer.freeCache.entries.map fun e => e.2.size.toNat).sum + allocSize.toNat ≤
            s.buffer.warningSize.toNat ∧
          ∃ a, addr = some a ∧ s.heap.Fits ⟨a, allocSize.toNat⟩ :=
  (MemPool.Inv.run run).handedOut_iff hheld

end Thread

/-- One block requested and released. -/
def oneReleased : List (PoolAction (Fin 1)) :=
  [.lookup 0 600, .test 0, .allocate 0 (some 16), .count 0,
    .release ⟨"grayscale_pic0", ⟨16, 600⟩, 600⟩]

theorem requestMemBlob_handedOut_iff_oneReleased :
    ∃ s : MemPool (Fin 1), s.held = [] ∧
      ((∃ s' blob, requestMemBlob s 600 none = some (s', [.handedOut blob])) ↔
        (∃ e ∈ s.buffer.freeCache.entries, e.2.size = 600) ∨
          (s.buffer.freeCache.entries.map fun e => e.2.size.toNat).sum + (600 : BitVec 64).toNat ≤
              s.buffer.warningSize.toNat ∧
            ∃ a, none = some a ∧ s.heap.Fits ⟨a, (600 : BitVec 64).toNat⟩) := by
  have run : PoolRun (Fin 1) "grayscale_pic" 1000 oneReleased _ _ := Run.of_exec_get (by decide)
  exact ⟨_, rfl, requestMemBlob_handedOut_iff run rfl 600 none⟩

/-- The free block of another size takes the room. -/
theorem not_available_after_release :
    ¬∀ (as : List (PoolAction (Fin 1))) (es : List PoolEvent) (s : MemPool (Fin 1)),
      PoolRun (Fin 1) "grayscale_pic" 1000 as es s → s.held = [] →
        ∀ (allocSize : BitVec 64) (a : ℕ), 1 ≤ allocSize → allocSize ≤ 1000 →
          s.heap.Fits ⟨a, allocSize.toNat⟩ →
            ∃ s' blob, requestMemBlob s allocSize (some a) = some (s', [.handedOut blob]) := by
  intro h
  have run : PoolRun (Fin 1) "grayscale_pic" 1000 oneReleased _ _ := Run.of_exec_get (by decide)
  obtain ⟨s', blob, hcall⟩ := h _ _ _ run rfl 500 1000 (by decide) (by decide) (by decide)
  cases hcall

end Serial

end Base
