/-
An archive that has been written can be read.

The reader takes the end of the archive from the first NULL record, and goes from header to header
by the sizes.  Since the writer pads every file to whole records and ends with two NULL records, the
reader in memory, which does not read up to the last byte, has all headers and data before it.

* `Archive.Holds` — from a position on, the archive holds entries and its end;
* `find_written` — `mtar_find` and `mtar_read_data` give the first entry with a name as it was
  written;
* `filenames_written` — the list of the names is complete, and in order.
-/
import HandTracking.MicrotarData
import HandTracking.MicrotarListing
import HandTracking.MicrotarWriter

namespace Microtar

open Reader

theorem length_entry_eq (e : Entry) :
    e.bytes.length = 512 + e.data.length + padding e.data.length := by
  rw [Entry.bytes, List.length_append, List.length_append, length_headerToRaw e.fits,
    List.length_replicate]

theorem wholeRecords_eq (n : ℕ) : Archive.wholeRecords n = n + padding n := by
  unfold Archive.wholeRecords padding
  omega

namespace Archive

variable {arc : Archive} {unset : BitVec 32 → Unset} {p : BitVec 32} {e : Entry}
  {entries : List Entry}

/-- The bytes from the position on; anything may be behind the end of the archive. -/
def Holds (arc : Archive) (p : BitVec 32) (entries : List Entry) : Prop :=
  ∃ rest, arc.bytes.drop p.toNat = encode entries ++ rest

theorem Holds.room (h : arc.Holds p entries) :
    p.toNat + (encode entries).length ≤ arc.len ∧ 1024 ≤ (encode entries).length := by
  obtain ⟨rest, hrest⟩ := h
  have hlen : arc.len - p.toNat = _ := List.length_drop.symm.trans (congrArg List.length hrest)
  have hend : 1024 ≤ (encode entries).length := by
    rw [encode, List.length_append, List.length_replicate]
    omega
  rw [List.length_append] at hlen
  omega

theorem encode_cons (e : Entry) (entries : List Entry) :
    encode (e :: entries) = e.bytes ++ encode entries := by
  rw [encode, encode, List.flatMap_cons, List.append_assoc]

theorem Holds.room_cons (h : arc.Holds p (e :: entries)) :
    p.toNat + 512 + e.data.length + padding e.data.length + 1024 ≤ arc.len := by
  have hroom := h.room.1
  have hend : 1024 ≤ (encode entries).length := by
    rw [encode, List.length_append, List.length_replicate]
    omega
  rw [encode_cons, List.length_append, length_entry_eq] at hroom
  omega

/-! ### One entry -/

theorem Holds.headerAt (h : arc.Holds p (e :: entries)) :
    arc.headerAt unset p = .ok e.header := by
  have hroom := h.room_cons
  obtain ⟨rest, hrest⟩ := h
  have hslice : arc.slice p.toNat 512 = headerToRaw e.header := by
    rw [slice, hrest, encode_cons, Entry.bytes, ← length_headerToRaw e.fits, List.append_assoc,
      List.append_assoc, List.append_assoc, List.take_left]
  unfold Archive.headerAt
  rw [if_neg (by omega), if_pos (by omega), hslice, rawToHeader_headerToRaw (unset p) _ e.fits]

theorem Holds.data (h : arc.Holds p (e :: entries)) :
    arc.slice (p.toNat + 512) e.header.size.toNat = e.data := by
  obtain ⟨rest, hrest⟩ := h
  rw [slice, ← List.drop_drop, hrest, encode_cons, Entry.bytes, ← length_headerToRaw e.fits,
    List.append_assoc, List.append_assoc, List.append_assoc, List.drop_left, e.size_eq,
    List.take_left]

/-- The size takes the reader to the next entry, without an overflow. -/
theorem Holds.following (h : arc.Holds p (e :: entries)) :
    arc.Holds (following p e.header) entries := by
  have hroom := h.room_cons
  have hlen : arc.len < 2 ^ 32 := arc.length_lt
  have hsize := e.size_eq
  have h512 : (512 : BitVec 32).toNat = 512 := rfl
  have hnext : (Archive.following p e.header).toNat = p.toNat + e.bytes.length := by
    rw [Archive.following, BitVec.toNat_add, BitVec.toNat_add, roundUp_toNat,
      if_neg (by omega), wholeRecords_eq, hsize, h512, length_entry_eq]
    omega
  obtain ⟨rest, hrest⟩ := h
  refine ⟨rest, ?_⟩
  rw [hnext, ← List.drop_drop, hrest, encode_cons, List.append_assoc, List.drop_left]

/-- The first of the two NULL records. -/
theorem Holds.headerAt_nil (h : arc.Holds p []) :
    arc.headerAt unset p = .error .nullRecord := by
  have hroom := h.room
  have hend : (encode []).length = 1024 := by
    rw [encode, List.flatMap_nil, List.nil_append, List.length_replicate]
  obtain ⟨rest, hrest⟩ := h
  have hslice : arc.slice p.toNat 512 = List.replicate 512 0 := by
    have htwo : List.replicate 1024 (0 : BitVec 8) =
        List.replicate 512 0 ++ List.replicate 512 0 := by
      rw [← List.replicate_add]
    have hrecord : (List.replicate 512 (0 : BitVec 8)).length = 512 := List.length_replicate
    rw [slice, hrest, encode, List.flatMap_nil, List.nil_append, htwo, List.append_assoc]
    exact List.take_left' hrecord
  have hnull : rawToHeader (unset p) (List.replicate 512 0) = .error .nullRecord := by
    unfold rawToHeader
    rw [if_pos (List.getElem?_replicate_of_lt (by omega))]
  unfold Archive.headerAt
  rw [if_neg (by omega), if_pos (by omega), hslice, hnull]

/-! ### All entries -/

/-- The first entry with the name, at a position where the reader finds its data. -/
theorem Holds.findFrom_some {name : Bytes} {fuel : ℕ} (h : arc.Holds p entries)
    (unset : BitVec 32 → Unset) (hfuel : entries.length < fuel)
    (hfind : entries.find? (fun e => e.header.name = name) = some e) :
    ∃ q behind, arc.findFrom unset name fuel p = .ok (some (q, e.header)) ∧
      arc.Holds q (e :: behind) := by
  induction entries generalizing p fuel with
  | nil => cases hfind
  | cons first entries ih =>
    obtain ⟨fuel, rfl⟩ : ∃ k, fuel = k + 1 := ⟨fuel - 1, by omega⟩
    rw [List.length_cons] at hfuel
    unfold Archive.findFrom
    rw [h.headerAt]
    dsimp only
    by_cases hname : first.header.name = name
    · rw [List.find?_cons_of_pos (by rw [hname]; exact decide_eq_true rfl)] at hfind
      cases hfind
      rw [if_pos hname]
      exact ⟨p, entries, rfl, h⟩
    · rw [List.find?_cons_of_neg (by rwa [decide_eq_true_eq])] at hfind
      rw [if_neg hname]
      exact ih h.following (by omega) hfind

theorem Holds.findFrom_none {name : Bytes} {fuel : ℕ} (h : arc.Holds p entries)
    (hfuel : entries.length < fuel)
    (hfind : entries.find? (fun e => e.header.name = name) = none) :
    arc.findFrom unset name fuel p = .error .nullRecord := by
  induction entries generalizing p fuel with
  | nil =>
    obtain ⟨fuel, rfl⟩ : ∃ k, fuel = k + 1 := ⟨fuel - 1, by omega⟩
    unfold Archive.findFrom
    rw [h.headerAt_nil]
  | cons first entries ih =>
    obtain ⟨fuel, rfl⟩ : ∃ k, fuel = k + 1 := ⟨fuel - 1, by omega⟩
    rw [List.length_cons] at hfuel
    obtain ⟨hname, hfind⟩ := List.forall_mem_cons.mp (List.find?_eq_none.mp hfind)
    unfold Archive.findFrom
    rw [h.headerAt]
    dsimp only
    rw [if_neg (by rwa [decide_eq_true_eq] at hname)]
    exact ih h.following (by omega) (List.find?_eq_none.mpr hfind)

/-- The names that are pushed, in order, and the end of the list without an error. -/
theorem Holds.listFrom {suffix : Option Bytes} {fuel : ℕ} (h : arc.Holds p entries)
    (hfuel : entries.length < fuel) (names : List Bytes) :
    arc.listFrom unset suffix fuel names p =
      some (names ++ (entries.map fun e => e.header.name).filter (hasSuffix suffix),
        .nullRecord) := by
  induction entries generalizing p fuel names with
  | nil =>
    obtain ⟨fuel, rfl⟩ : ∃ k, fuel = k + 1 := ⟨fuel - 1, by omega⟩
    unfold Archive.listFrom
    rw [h.headerAt_nil]
    dsimp only
    rw [List.map_nil, List.filter_nil, List.append_nil]
  | cons first entries ih =>
    obtain ⟨fuel, rfl⟩ : ∃ k, fuel = k + 1 := ⟨fuel - 1, by omega⟩
    rw [List.length_cons] at hfuel
    unfold Archive.listFrom
    rw [h.headerAt]
    dsimp only
    rw [ih h.following (by omega), List.map_cons]
    by_cases hsuffix : hasSuffix suffix first.header.name = true
    · rw [if_pos hsuffix, List.filter_cons_of_pos hsuffix, List.append_assoc,
        List.singleton_append]
    · rw [if_neg hsuffix, List.filter_cons_of_neg hsuffix]

theorem holds_of_eq {rest : Bytes} (h : arc.bytes = encode entries ++ rest) :
    arc.Holds 0 entries :=
  ⟨rest, h⟩

end Archive

/-! ### From the writer to the reader -/

section Written

variable {σ : Type} {d : WriteStream σ} {jobs : List Job} {stream : σ} {written : Mtar × σ}

/-- Entries are written to an empty stream, their data in pieces, and no call fails; what stands in
the stream, and anything behind it, is opened in memory.  Then the search for a name gives the
header of the first entry with it, and the read of as many bytes as the header says gives the data;
without such an entry the name is not found. -/
theorem find_written
    (hwrite : Succeeds (writeJobs d jobs) (Mtar.opened, stream) () written)
    (hempty : d.written stream = []) (arc : Archive) (rest : Bytes)
    (harc : arc.bytes = d.written written.2 ++ rest) (unset : BitVec 32 → Unset) (fuel : ℕ)
    (hfuel : jobs.length < fuel) (name : Bytes) (s : Mtar × ℕ) :
    match (jobs.map Job.entry).find? (fun e => e.header.name = cString name) with
    | some e => ∃ s', exec arc.stream (mtarFind unset fuel name) s = (.ok (some e.header), s') ∧
        (exec arc.stream (mtarReadData unset e.header.size) s').1 = .ok (e.data, .ok ())
    | none => (exec arc.stream (mtarFind unset fuel name) s).1 = .error .notFound := by
  have hholds : arc.Holds 0 (jobs.map Job.entry) := by
    rw [written_writeJobs hwrite hempty] at harc
    exact Archive.holds_of_eq harc
  have hlen : (jobs.map Job.entry).length < fuel := by rwa [List.length_map]
  cases hfind : (jobs.map Job.entry).find? (fun e => e.header.name = cString name) with
  | none =>
    rw [Archive.exec_mtarFind, hholds.findFrom_none hlen hfind]
    rfl
  | some e =>
    obtain ⟨q, behind, hfound, hq⟩ := hholds.findFrom_some unset hlen hfind
    have hroom := hq.room_cons
    refine ⟨_, Archive.exec_mtarFind_ok hfound, ?_⟩
    rw [Archive.exec_mtarReadData hq.headerAt, e.size_eq, if_pos (by omega), ← e.size_eq, hq.data]

/-- Two files, one whose two bytes are written one by one. -/
def bytewise : List Job :=
  [.file [97, 46, 116] [[1], [2]] (by decide) (by decide), .file [98] [] (by decide) (by decide)]

/-- A disk that takes everything. -/
def wideDisk : WriteStream (Bytes × Unit) := .file fun _ n => (n, ())

/-- The writer and the file after it. -/
def bytewiseWritten : Mtar × Bytes × Unit :=
  ((writeJobs wideDisk bytewise).run.run (Mtar.opened, [], ())).2

theorem succeeds_bytewise :
    Succeeds (writeJobs wideDisk bytewise) (Mtar.opened, [], ()) () bytewiseWritten :=
  succeeds_run (exists_writeJobs (fun _ data => decide_eq_true (Nat.min_self data.length))
    (Mtar.opened, [], ()) bytewise)

/-- What it leaves on the disk, in memory. -/
def bytewiseArchive : Archive where
  bytes := encode (bytewise.map Job.entry)
  length_lt := by
    simp only [bytewise, List.map_cons, List.map_nil, Archive.encode_cons, List.length_append,
      length_entry_eq]
    rw [encode, List.flatMap_nil, List.nil_append, List.length_replicate]
    decide

theorem bytes_bytewiseArchive :
    bytewiseArchive.bytes = wideDisk.written bytewiseWritten.2 ++ [] := by
  have hwritten := written_writeJobs succeeds_bytewise rfl
  rw [List.append_nil, hwritten, bytewiseArchive]

theorem find_written_bytewise :
    ∃ s', exec bytewiseArchive.stream (mtarFind zeros 3 [97, 46, 116]) (Mtar.opened, 0) =
        (.ok (some (fileHeader [97, 46, 116] 2)), s') ∧
      (exec bytewiseArchive.stream (mtarReadData zeros 2) s').1 = .ok ([1, 2], .ok ()) :=
  find_written succeeds_bytewise rfl bytewiseArchive [] bytes_bytewiseArchive zeros 3 (by decide)
    [97, 46, 116] (Mtar.opened, 0)

/-- A suffix of a dot and a text without one is just the end of the name. -/
theorem endsIn_iff_isSuffix {ext : Bytes} (hdot : 46 ∉ ext) (hnul : 0 ∉ ext) (name : Bytes) :
    Archive.EndsIn (some (46 :: ext)) name ↔ 46 :: ext <:+ name := by
  have hself : cString (46 :: ext) = 46 :: ext :=
    cString_eq_self fun hmem => (List.mem_cons.mp hmem).elim (by decide) hnul
  unfold Archive.EndsIn
  simp only [Option.some.injEq, forall_eq', hself, List.cons.injEq, true_and]
  constructor
  · rintro ⟨stem, ext', rfl, -, rfl⟩
    exact ⟨stem, rfl⟩
  · rintro ⟨stem, rfl⟩
    exact ⟨stem, ext, rfl, hdot, rfl⟩

/-- The names of the archive, all or those whose part from the last dot on is the suffix, are listed
in the order in which they were written. -/
theorem filenames_written
    (hwrite : Succeeds (writeJobs d jobs) (Mtar.opened, stream) () written)
    (hempty : d.written stream = []) (arc : Archive) (rest : Bytes)
    (harc : arc.bytes = d.written written.2 ++ rest) (unset : BitVec 32 → Unset) (fuel : ℕ)
    (hfuel : jobs.length < fuel) (suffix : Option Bytes) (s : Mtar × ℕ) :
    (exec arc.stream (mtarGetFilteredFilenames unset fuel suffix) s).1 =
      .ok (some ((jobs.map fun job => job.entry.header.name).filter (Archive.EndsIn suffix),
        .ok ())) := by
  have hholds : arc.Holds 0 (jobs.map Job.entry) := by
    rw [written_writeJobs hwrite hempty] at harc
    exact Archive.holds_of_eq harc
  have hlen : (jobs.map Job.entry).length < fuel := by rwa [List.length_map]
  have hsuffix : (fun name => decide (Archive.EndsIn suffix name)) = hasSuffix suffix := by
    funext name
    rw [Bool.eq_iff_iff, decide_eq_true_eq, Archive.hasSuffix_iff]
  rw [Archive.exec_mtarGetFilteredFilenames, hholds.listFrom hlen [], List.map_map, hsuffix]
  rfl

/-- The suffix is that of the first file. -/
theorem filenames_written_bytewise :
    (exec bytewiseArchive.stream (mtarGetFilteredFilenames zeros 3 (some [46, 116]))
        (Mtar.opened, 0)).1 =
      .ok (some ([[97, 46, 116]], .ok ())) :=
  filenames_written succeeds_bytewise rfl bytewiseArchive [] bytes_bytewiseArchive zeros 3
    (by decide) (some [46, 116]) (Mtar.opened, 0)

end Written

end Microtar
