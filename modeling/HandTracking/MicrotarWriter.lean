/-
The writer of tar archives.

A writer counts the bytes it has written, with 32 bits, and those that the file at hand still lacks.
It pads a file as soon as nothing is missing, from the count and not from the size.

* `WriteStream` — a stream that appends what it takes; `WriteStream.file`, `WriteStream.memory` —
  the two streams of the writer;
* `Writer` — the functions of the writer;
* `Entry`, `encode` — what an archive is to hold, and its bytes;
* `Job` — an entry and the pieces of its data; `Job.file`, `Job.dir` — those of the two calls that
  write a header from a name, which must have fewer than 100 bytes;
* `written_writeJobs` — if every call succeeds, these are the bytes, in whatever pieces the data
  came.
-/
import HandTracking.MicrotarHeaders

namespace Microtar

/-! ### Streams to write to -/

/-- The `write` of a stream tells whether it took all bytes; then they stand behind the others. -/
structure WriteStream (σ : Type) where
  write : σ → Bytes → Bool × σ
  written : σ → Bytes
  written_write : ∀ {s data s'}, write s data = (true, s') → written s' = written s ++ data

namespace WriteStream

/-- `file_write`: of some bytes `fwrite` writes as many as the disk takes. -/
def file {δ : Type} (fwrite : δ → ℕ → ℕ × δ) : WriteStream (Bytes × δ) where
  write s data :=
    let res := min (fwrite s.2 data.length).1 data.length
    (res = data.length, s.1 ++ data.take res, (fwrite s.2 data.length).2)
  written := Prod.fst
  written_write := by
    intro s data s' h
    obtain ⟨hres, rfl⟩ := Prod.mk.inj h
    rw [of_decide_eq_true hres, List.take_length]

/-- `mem_write`, to memory that is already there: the offset of the stream and the bytes. -/
structure Memory where
  stream : ℕ
  mem : Bytes
  stream_le : stream ≤ mem.length

/-- The stream that writes to memory; the last byte stays free. -/
def memory : WriteStream Memory where
  write s data :=
    if h : s.stream + data.length < s.mem.length then
      (true, {
        stream := s.stream + data.length
        mem := Fields.overwrite s.mem s.stream data
        stream_le := by
          rw [Fields.length_overwrite (Nat.le_of_lt h)]
          exact Nat.le_of_lt h })
    else (false, s)
  written s := s.mem.take s.stream
  written_write := by
    intro s data s' h
    split_ifs at h with hroom
    · obtain ⟨-, rfl⟩ := Prod.mk.inj h
      have hlen : (s.mem.take s.stream ++ data).length = s.stream + data.length := by
        rw [List.length_append, List.length_take, Nat.min_eq_left s.stream_le]
      dsimp only
      rw [Fields.overwrite, ← hlen, List.take_left]
    · exact absurd (Prod.mk.inj h).1 (by decide)

end WriteStream

/-! ### The writer -/

/-- How a call fails. -/
inductive WriteErr where
  | writeFail
  deriving DecidableEq, Repr

/-- The archive and its stream; a call that fails may have changed them. -/
abbrev Writer (σ α : Type) := ExceptT WriteErr (StateM (Mtar × σ)) α

section Functions

variable {σ : Type} (d : WriteStream σ)

/-- `twrite`: the position moves on, also if the stream fails. -/
def twrite (data : Bytes) : Writer σ Unit := ExceptT.mk fun s =>
  let r := d.write s.2 data
  (if r.1 then .ok () else .error .writeFail,
    { s.1 with pos := s.1.pos + BitVec.ofNat 32 data.length }, r.2)

/-- `write_null_bytes` -/
def writeNullBytes : ℕ → Writer σ Unit
  | 0 => pure ()
  | n + 1 => do
    twrite d [0]
    writeNullBytes n

/-- `mtar_write_header` -/
def mtarWriteHeader (h : MtarHeader) : Writer σ Unit := do
  modify fun s => ({ s.1 with remainingData := h.size }, s.2)
  twrite d (headerToRaw h)

/-- The header of `mtar_write_file_header`. -/
def fileHeader (name : Bytes) (size : BitVec 32) : MtarHeader :=
  { mode := 0o664, owner := 0, size := size, mtime := 0, type := 48, name := name, linkname := [] }

/-- `mtar_write_file_header` -/
def mtarWriteFileHeader (name : Bytes) (size : BitVec 32) : Writer σ Unit :=
  mtarWriteHeader d (fileHeader (cString name) size)

/-- The header of `mtar_write_dir_header`. -/
def dirHeader (name : Bytes) : MtarHeader :=
  { mode := 0o775, owner := 0, size := 0, mtime := 0, type := 53, name := name, linkname := [] }

/-- `mtar_write_dir_header` -/
def mtarWriteDirHeader (name : Bytes) : Writer σ Unit :=
  mtarWriteHeader d (dirHeader (cString name))

/-- `mtar_write_data`; behind the last piece the record is filled up with zeros. -/
def mtarWriteData (data : Bytes) : Writer σ Unit := do
  twrite d data
  modify fun s =>
    ({ s.1 with remainingData := s.1.remainingData - BitVec.ofNat 32 data.length }, s.2)
  let s ← get
  if s.1.remainingData = 0 then
    writeNullBytes d (roundUp s.1.pos 512 - s.1.pos).toInt.toNat
  else pure ()

/-- `mtar_finalize`: two records of zeros. -/
def mtarFinalize : Writer σ Unit := writeNullBytes d (512 * 2)

end Functions

/-! ### What an archive holds -/

/-- A header and the data that it announces. -/
structure Entry where
  header : MtarHeader
  data : Bytes
  fits : Fits header
  size_eq : header.size.toNat = data.length

/-- How many zeros there are to the end of the record. -/
def padding (n : ℕ) : ℕ := (512 - n % 512) % 512

/-- What an entry takes in the archive. -/
def Entry.bytes (e : Entry) : Bytes :=
  headerToRaw e.header ++ e.data ++ List.replicate (padding e.data.length) 0

/-- Two NULL records end it. -/
def encode (entries : List Entry) : Bytes :=
  entries.flatMap Entry.bytes ++ List.replicate 1024 0

/-- An entry, with the pieces in which its data are written. -/
structure Job where
  entry : Entry
  pieces : List Bytes
  flatten_pieces : pieces.flatten = entry.data

theorem fits_fileHeader {name : Bytes} (hname : (cString name).length < 100) (size : BitVec 32) :
    Fits (fileHeader (cString name) size) where
  mode := (by decide : (0o664 : BitVec 32).toNat < 8 ^ 7)
  owner := (by decide : (0 : BitVec 32).toNat < 8 ^ 7)
  type := (by decide : 0 < (48 : BitVec 32).toNat ∧ (48 : BitVec 32).toNat < 256)
  name := ⟨hname, zero_notMem_cString name⟩
  linkname := ⟨(by decide : 0 < 100), List.not_mem_nil⟩

theorem fits_dirHeader {name : Bytes} (hname : (cString name).length < 100) :
    Fits (dirHeader (cString name)) where
  mode := (by decide : (0o775 : BitVec 32).toNat < 8 ^ 7)
  owner := (by decide : (0 : BitVec 32).toNat < 8 ^ 7)
  type := (by decide : 0 < (53 : BitVec 32).toNat ∧ (53 : BitVec 32).toNat < 256)
  name := ⟨hname, zero_notMem_cString name⟩
  linkname := ⟨(by decide : 0 < 100), List.not_mem_nil⟩

/-- A file that is written with `mtar_write_file_header` and `mtar_write_data`. -/
def Job.file (name : Bytes) (pieces : List Bytes) (hname : (cString name).length < 100)
    (hsize : pieces.flatten.length < 2 ^ 32) : Job where
  entry := {
    header := fileHeader (cString name) (BitVec.ofNat 32 pieces.flatten.length)
    data := pieces.flatten
    fits := fits_fileHeader hname _
    size_eq := by
      change (BitVec.ofNat 32 _).toNat = _
      rw [BitVec.toNat_ofNat]
      exact Nat.mod_eq_of_lt hsize }
  pieces := pieces
  flatten_pieces := rfl

/-- A directory that is written with `mtar_write_dir_header`. -/
def Job.dir (name : Bytes) (hname : (cString name).length < 100) : Job where
  entry := {
    header := dirHeader (cString name)
    data := []
    fits := fits_dirHeader hname
    size_eq := rfl }
  pieces := []
  flatten_pieces := rfl

section Writing

variable {σ : Type} (d : WriteStream σ)

/-- The data of a file, piece by piece. -/
def writePieces : List Bytes → Writer σ Unit
  | [] => pure ()
  | piece :: pieces => do
    mtarWriteData d piece
    writePieces pieces

/-- The entries one after another, and the end of the archive. -/
def writeJobs : List Job → Writer σ Unit
  | [] => mtarFinalize d
  | job :: jobs => do
    mtarWriteHeader d job.entry.header
    writePieces d job.pieces
    writeJobs jobs

/-- A file is the two calls of its writer. -/
theorem writeJobs_file (name : Bytes) (pieces : List Bytes) (hname : (cString name).length < 100)
    (hsize : pieces.flatten.length < 2 ^ 32) (jobs : List Job) :
    writeJobs d (Job.file name pieces hname hsize :: jobs) = (do
      mtarWriteFileHeader d name (BitVec.ofNat 32 pieces.flatten.length)
      writePieces d pieces
      writeJobs d jobs) := rfl

/-- A directory is one call. -/
theorem writeJobs_dir (name : Bytes) (hname : (cString name).length < 100) (jobs : List Job) :
    writeJobs d (Job.dir name hname :: jobs) = (do
      mtarWriteDirHeader d name
      writeJobs d jobs) := rfl

variable {d} {α β : Type} {m : Writer σ α} {f : α → Writer σ β} {s s' : Mtar × σ}

/-! ### Calls that succeed -/

/-- The writer goes from one state to another, without an error. -/
def Succeeds (m : Writer σ α) (s : Mtar × σ) (a : α) (s' : Mtar × σ) : Prop :=
  m.run.run s = (.ok a, s')

theorem succeeds_pure {a b : α} (h : Succeeds (pure a) s b s') : b = a ∧ s' = s := by
  obtain ⟨ha, hs⟩ := Prod.mk.inj h
  exact ⟨(Except.ok.inj ha).symm, hs.symm⟩

/-- A program succeeds if both its parts do. -/
theorem succeeds_bind {b : β} (h : Succeeds (m >>= f) s b s') :
    ∃ a t, Succeeds m s a t ∧ Succeeds (f a) t b s' := by
  unfold Succeeds at h
  rw [ExceptT.run_bind, StateT.run_bind] at h
  cases hm : m.run.run s with
  | mk r t =>
    cases r with
    | ok a => exact ⟨a, t, hm, by rwa [hm] at h⟩
    | error err =>
      rw [hm] at h
      cases h

theorem succeeds_modify {g : Mtar × σ → Mtar × σ} {u : Unit}
    (h : Succeeds (modify g : Writer σ Unit) s u s') : s' = g s :=
  (Prod.mk.inj h).2.symm

theorem succeeds_get {a : Mtar × σ} (h : Succeeds (get : Writer σ _) s a s') : a = s ∧ s' = s := by
  obtain ⟨ha, hs⟩ := Prod.mk.inj h
  exact ⟨(Except.ok.inj ha).symm, hs.symm⟩

/-! ### What they append -/

/-- The bytes are behind the others in the stream, and the position has moved by as many; only
where it is within its record matters. -/
structure Appends (d : WriteStream σ) (s s' : Mtar × σ) (bytes : Bytes) : Prop where
  written : d.written s'.2 = d.written s.2 ++ bytes
  pos : s'.1.pos.toNat % 512 = (s.1.pos.toNat + bytes.length) % 512

theorem Appends.nil : Appends d s s [] :=
  ⟨(List.append_nil _).symm, rfl⟩

theorem Appends.trans {t : Mtar × σ} {bytes bytes' : Bytes} (h : Appends d s t bytes)
    (h' : Appends d t s' bytes') : Appends d s s' (bytes ++ bytes') := by
  refine ⟨by rw [h'.written, h.written, List.append_assoc], ?_⟩
  have hpos := h.pos
  have hpos' := h'.pos
  rw [List.length_append]
  omega

theorem padding_congr {m n : ℕ} (h : m % 512 = n % 512) : padding m = padding n := by
  unfold padding
  rw [h]

theorem add_padding_mod (n : ℕ) : (n + padding n) % 512 = 0 := by
  unfold padding
  omega

theorem padding_of_mod {n : ℕ} (h : n % 512 = 0) : padding n = 0 := by
  unfold padding
  rw [h]

/-- The count of the padding is the one that the position asks for. -/
theorem roundUp_sub_toNat (n : BitVec 32) : (roundUp n 512 - n).toInt.toNat = padding n.toNat := by
  have h512 : (512 : BitVec 32).toNat = 512 := rfl
  have hsub : roundUp n 512 - n = (512 - n % 512) % 512 := by
    unfold roundUp
    rw [BitVec.add_comm, BitVec.add_sub_cancel]
  have hcount : ((512 - n % 512) % 512 : BitVec 32).toNat = padding n.toNat := by
    have hn := n.isLt
    rw [BitVec.toNat_umod, BitVec.toNat_sub, BitVec.toNat_umod, h512]
    unfold padding
    omega
  have hlt : padding n.toNat < 512 := by
    unfold padding
    omega
  rw [hsub, BitVec.toInt_eq_toNat_of_lt (by omega), hcount, Int.toNat_natCast]

theorem succeeds_twrite {data : Bytes} {u : Unit} (h : Succeeds (twrite d data) s u s') :
    Appends d s s' data ∧ s'.1.remainingData = s.1.remainingData := by
  unfold Succeeds twrite at h
  obtain ⟨hok, hs⟩ := Prod.mk.inj h
  obtain ⟨tar, stream⟩ := s
  obtain ⟨tar', stream'⟩ := s'
  cases hw : d.write stream data with
  | mk ok t =>
    simp only [hw, Prod.mk.injEq] at hok hs
    obtain ⟨rfl, rfl⟩ := hs
    cases ok with
    | false => cases hok
    | true =>
      refine ⟨⟨d.written_write hw, ?_⟩, rfl⟩
      simp only [BitVec.toNat_add, BitVec.toNat_ofNat]
      omega

theorem succeeds_writeNullBytes {n : ℕ} {u : Unit} (h : Succeeds (writeNullBytes d n) s u s') :
    Appends d s s' (List.replicate n 0) ∧ s'.1.remainingData = s.1.remainingData := by
  induction n generalizing s with
  | zero =>
    obtain ⟨-, rfl⟩ := succeeds_pure h
    exact ⟨.nil, rfl⟩
  | succ n ih =>
    obtain ⟨⟨⟩, t, hbyte, hrest⟩ := succeeds_bind h
    obtain ⟨happ, hrem⟩ := succeeds_twrite hbyte
    obtain ⟨happ', hrem'⟩ := ih hrest
    exact ⟨happ.trans happ', hrem'.trans hrem⟩

theorem succeeds_mtarWriteHeader {h : MtarHeader} {u : Unit}
    (hok : Succeeds (mtarWriteHeader d h) s u s') :
    Appends d s s' (headerToRaw h) ∧ s'.1.remainingData = h.size := by
  obtain ⟨⟨⟩, t, hset, hwrite⟩ := succeeds_bind hok
  obtain rfl := succeeds_modify hset
  obtain ⟨happ, hrem⟩ := succeeds_twrite hwrite
  exact ⟨⟨happ.written, happ.pos⟩, hrem⟩

/-- A piece, and the padding if nothing is missing after it. -/
theorem succeeds_mtarWriteData {data : Bytes} {u : Unit}
    (h : Succeeds (mtarWriteData d data) s u s') :
    s'.1.remainingData = s.1.remainingData - BitVec.ofNat 32 data.length ∧
      Appends d s s' (data ++ if s'.1.remainingData = 0 then
        List.replicate (padding (s.1.pos.toNat + data.length)) 0 else []) := by
  obtain ⟨⟨⟩, t, hwrite, h⟩ := succeeds_bind h
  obtain ⟨happ, hrem⟩ := succeeds_twrite hwrite
  obtain ⟨⟨⟩, t', hset, h⟩ := succeeds_bind h
  obtain rfl := succeeds_modify hset
  obtain ⟨a, t'', hget, h⟩ := succeeds_bind h
  obtain ⟨rfl, rfl⟩ := succeeds_get hget
  by_cases hdone : t.1.remainingData - BitVec.ofNat 32 data.length = 0
  · rw [if_pos hdone, roundUp_sub_toNat] at h
    obtain ⟨hpad, hrem'⟩ := succeeds_writeNullBytes h
    rw [hrem] at hrem'
    rw [hrem] at hdone
    rw [hrem', if_pos hdone, ← padding_congr happ.pos]
    exact ⟨rfl, happ.trans ⟨hpad.written, hpad.pos⟩⟩
  · rw [if_neg hdone] at h
    obtain ⟨-, rfl⟩ := succeeds_pure h
    rw [if_neg hdone, List.append_nil]
    exact ⟨by rw [hrem], happ.written, happ.pos⟩

/-- Pieces of as many bytes as are missing.  The padding comes after the one that completes the
file; empty pieces behind it find the position at the end of a record. -/
theorem succeeds_writePieces {pieces : List Bytes} {u : Unit}
    (h : Succeeds (writePieces d pieces) s u s')
    (hsize : pieces.flatten.length = s.1.remainingData.toNat)
    (hpos : s.1.remainingData = 0 → s.1.pos.toNat % 512 = 0) :
    Appends d s s' (pieces.flatten ++
      List.replicate (padding (s.1.pos.toNat + pieces.flatten.length)) 0) := by
  induction pieces generalizing s with
  | nil =>
    obtain ⟨-, rfl⟩ := succeeds_pure h
    have hzero : s'.1.remainingData = 0 := BitVec.eq_of_toNat_eq hsize.symm
    rw [List.flatten_nil, List.length_nil, Nat.add_zero, padding_of_mod (hpos hzero)]
    exact .nil
  | cons piece pieces ih =>
    obtain ⟨⟨⟩, t, hpiece, hrest⟩ := succeeds_bind h
    obtain ⟨hrem, happ⟩ := succeeds_mtarWriteData hpiece
    rw [List.flatten_cons, List.length_append] at hsize ⊢
    have hlt := s.1.remainingData.isLt
    have hrem' : t.1.remainingData.toNat = s.1.remainingData.toNat - piece.length := by
      rw [hrem, BitVec.toNat_sub, BitVec.toNat_ofNat]
      omega
    have hpos' := happ.pos
    by_cases hdone : t.1.remainingData = 0
    · rw [if_pos hdone] at happ hpos'
      rw [List.length_append, List.length_replicate, ← Nat.add_assoc, add_padding_mod] at hpos'
      have hnone : pieces.flatten.length = 0 := by
        rw [hdone] at hrem'
        have hzero : (0 : BitVec 32).toNat = 0 := rfl
        omega
      have hmore := ih hrest (by rw [hnone, hdone]; rfl) fun _ => hpos'
      rw [hnone, Nat.add_zero, padding_of_mod hpos', List.eq_nil_of_length_eq_zero hnone] at hmore
      rw [hnone, Nat.add_zero, List.eq_nil_of_length_eq_zero hnone, List.append_nil]
      have hall := happ.trans hmore
      rwa [List.replicate_zero, List.append_nil, List.append_nil] at hall
    · rw [if_neg hdone, List.append_nil] at happ hpos'
      have hmore := happ.trans
        (ih hrest (by omega) fun hzero => absurd hzero hdone)
      rwa [padding_congr (n := s.1.pos.toNat + (piece.length + pieces.flatten.length)) (by omega),
        ← List.append_assoc] at hmore

theorem length_entry (e : Entry) : e.bytes.length % 512 = 0 := by
  have hmod := add_padding_mod e.data.length
  rw [Entry.bytes, List.length_append, List.length_append, length_headerToRaw e.fits,
    List.length_replicate]
  omega

theorem succeeds_writeJob {job : Job} {m : Writer σ Unit} {u : Unit}
    (h : Succeeds (do mtarWriteHeader d job.entry.header; writePieces d job.pieces; m) s u s')
    (hpos : s.1.pos.toNat % 512 = 0) :
    ∃ t, Appends d s t job.entry.bytes ∧ Succeeds m t u s' := by
  obtain ⟨⟨⟩, t, hheader, h⟩ := succeeds_bind h
  obtain ⟨⟨⟩, t', hpieces, hrest⟩ := succeeds_bind h
  obtain ⟨happ, hrem⟩ := succeeds_mtarWriteHeader hheader
  have hpos' := happ.pos
  rw [length_headerToRaw job.entry.fits] at hpos'
  have hdata := succeeds_writePieces hpieces
    (by rw [job.flatten_pieces, hrem, job.entry.size_eq]) fun _ => by omega
  rw [job.flatten_pieces, padding_congr (n := job.entry.data.length) (by omega)] at hdata
  have hall := happ.trans hdata
  rw [← List.append_assoc] at hall
  exact ⟨t', hall, hrest⟩

/-- If all calls succeed, the archive is behind what the stream held before. -/
theorem succeeds_writeJobs {jobs : List Job} {u : Unit} (h : Succeeds (writeJobs d jobs) s u s')
    (hpos : s.1.pos.toNat % 512 = 0) : Appends d s s' (encode (jobs.map Job.entry)) := by
  induction jobs generalizing s with
  | nil => exact (succeeds_writeNullBytes h).1
  | cons job jobs ih =>
    obtain ⟨t, happ, hrest⟩ := succeeds_writeJob h hpos
    have hlen := length_entry job.entry
    have hpos' := happ.pos
    have hall := happ.trans (ih hrest (by omega))
    rwa [encode, ← List.append_assoc] at hall

/-- What a new writer leaves in a stream that was empty. -/
theorem written_writeJobs {jobs : List Job} {stream : σ} {u : Unit}
    (h : Succeeds (writeJobs d jobs) (Mtar.opened, stream) u s')
    (hempty : d.written stream = []) : d.written s'.2 = encode (jobs.map Job.entry) := by
  have happ := (succeeds_writeJobs h rfl).written
  rwa [hempty, List.nil_append] at happ

/-! ### A stream that takes everything -/

theorem Succeeds.bind {a : α} {b : β} {t : Mtar × σ} (hm : Succeeds m s a t)
    (hf : Succeeds (f a) t b s') : Succeeds (m >>= f) s b s' := by
  unfold Succeeds at *
  rw [ExceptT.run_bind, StateT.run_bind, hm]
  exact hf

theorem succeeds_run {a : α} (h : ∃ s', Succeeds m s a s') : Succeeds m s a (m.run.run s).2 := by
  obtain ⟨s', hs'⟩ := h
  have hstate : (m.run.run s).2 = s' := congrArg Prod.snd hs'
  rwa [hstate]

variable (hd : ∀ s data, (d.write s data).1 = true)
include hd

theorem exists_twrite (s : Mtar × σ) (data : Bytes) :
    ∃ s', Succeeds (twrite d data) s () s' := by
  refine ⟨_, Prod.ext ?_ rfl⟩
  exact if_pos (hd s.2 data)

theorem exists_writeNullBytes (s : Mtar × σ) (n : ℕ) :
    ∃ s', Succeeds (writeNullBytes d n) s () s' := by
  induction n generalizing s with
  | zero => exact ⟨s, rfl⟩
  | succ n ih =>
    obtain ⟨t, hbyte⟩ := exists_twrite hd s [0]
    obtain ⟨s', hrest⟩ := ih t
    exact ⟨s', hbyte.bind hrest⟩

theorem exists_mtarWriteData (s : Mtar × σ) (data : Bytes) :
    ∃ s', Succeeds (mtarWriteData d data) s () s' := by
  obtain ⟨t, hwrite⟩ := exists_twrite hd s data
  let t' : Mtar × σ :=
    ({ t.1 with remainingData := t.1.remainingData - BitVec.ofNat 32 data.length }, t.2)
  have hsub : Succeeds (modify fun s : Mtar × σ =>
      ({ s.1 with remainingData := s.1.remainingData - BitVec.ofNat 32 data.length }, s.2) :
        Writer σ Unit) t () t' := rfl
  have hget : Succeeds (get : Writer σ _) t' t' t' := rfl
  by_cases hdone : t'.1.remainingData = 0
  · obtain ⟨s', hpad⟩ := exists_writeNullBytes hd t' (roundUp t'.1.pos 512 - t'.1.pos).toInt.toNat
    exact ⟨s', hwrite.bind (hsub.bind (hget.bind (by rwa [if_pos hdone])))⟩
  · exact ⟨t', hwrite.bind (hsub.bind (hget.bind (by rw [if_neg hdone]; rfl)))⟩

theorem exists_writePieces (s : Mtar × σ) (pieces : List Bytes) :
    ∃ s', Succeeds (writePieces d pieces) s () s' := by
  induction pieces generalizing s with
  | nil => exact ⟨s, rfl⟩
  | cons piece pieces ih =>
    obtain ⟨t, hpiece⟩ := exists_mtarWriteData hd s piece
    obtain ⟨s', hrest⟩ := ih t
    exact ⟨s', hpiece.bind hrest⟩

/-- Then no call fails. -/
theorem exists_writeJobs (s : Mtar × σ) (jobs : List Job) :
    ∃ s', Succeeds (writeJobs d jobs) s () s' := by
  induction jobs generalizing s with
  | nil => exact exists_writeNullBytes hd s (512 * 2)
  | cons job jobs ih =>
    obtain ⟨t, hheader⟩ := exists_twrite hd
      ({ s.1 with remainingData := job.entry.header.size }, s.2) (headerToRaw job.entry.header)
    have hheader' : Succeeds (mtarWriteHeader d job.entry.header) s () t := hheader
    obtain ⟨t', hpieces⟩ := exists_writePieces hd t job.pieces
    obtain ⟨s', hrest⟩ := ih t'
    exact ⟨s', hheader'.bind (hpieces.bind hrest)⟩

end Writing

end Microtar
