/-
Ordered maps as sorted association lists.

`OrderedMap α β` is a finite map iterated in the order of its keys, in the manner
of a red-black tree's iterators: `insert` keeps an entry that is already there,
`begin?` is the entry of the smallest key, and `eraseFrontWhile` is the loop that
erases from the front until its condition fails.  The entries carry the proof
that their keys increase strictly, so two maps with the same lookups are equal
(`ext_find?`).

* `find?_insert`, `find?_erase`, `find?_eraseFrontWhile_sub` — lookups after each
  operation;
* `entries_eraseFrontWhile_size` — erasing down to a bound on the size drops the
  smallest keys, and no others;
* `entries_eraseFrontWhile_lt` — erasing below a key keeps exactly the entries
  from that key on.
-/
import Mathlib.Data.List.Basic
import Mathlib.Order.Basic
import Mathlib.Tactic

/-- A finite map whose entries are listed by strictly increasing keys. -/
@[ext]
structure OrderedMap (α β : Type) [LinearOrder α] where
  entries : List (α × β)
  sorted : entries.Pairwise fun a b => a.1 < b.1

namespace OrderedMap

variable {α β : Type} [LinearOrder α] {m : OrderedMap α β} {k k' : α} {v v' : β}

/-- The map without keys. -/
def empty : OrderedMap α β := ⟨[], .nil⟩

/-- The number of keys. -/
def size (m : OrderedMap α β) : ℕ := m.entries.length

/-- The keys, in their order. -/
def keys (m : OrderedMap α β) : List α := m.entries.map Prod.fst

/-- The value of a key. -/
def find? (m : OrderedMap α β) (k : α) : Option β :=
  (m.entries.find? fun e => e.1 = k).map Prod.snd

/-- The entry of the smallest key. -/
def begin? (m : OrderedMap α β) : Option (α × β) := m.entries.head?

/-- Inserts in front of the first greater key; an entry of the same key stays. -/
def insertEntry (k : α) (v : β) : List (α × β) → List (α × β)
  | [] => [(k, v)]
  | e :: rest =>
    if k < e.1 then (k, v) :: e :: rest
    else if k = e.1 then e :: rest
    else e :: insertEntry k v rest

/-- Erases from the front while `p` holds of the current size and first key. -/
def eraseFront (p : ℕ → α → Bool) : List (α × β) → List (α × β)
  | [] => []
  | e :: rest => if p (rest.length + 1) e.1 then eraseFront p rest else e :: rest

theorem mem_insertEntry {l : List (α × β)} {e : α × β} :
    e ∈ insertEntry k v l → e = (k, v) ∨ e ∈ l := by
  induction l with
  | nil => simp [insertEntry]
  | cons hd rest ih =>
    rw [insertEntry]
    split_ifs <;> grind

theorem insertEntry_sorted {l : List (α × β)}
    (h : l.Pairwise fun a b => a.1 < b.1) :
    (insertEntry k v l).Pairwise fun a b => a.1 < b.1 := by
  induction l with
  | nil => simp [insertEntry]
  | cons hd rest ih =>
    obtain ⟨hhd, hrest⟩ := List.pairwise_cons.mp h
    rw [insertEntry]
    split_ifs with hlt heq
    · refine List.pairwise_cons.mpr ⟨fun e he => ?_, h⟩
      rcases List.mem_cons.mp he with rfl | he
      · exact hlt
      · exact hlt.trans (hhd e he)
    · exact h
    · refine List.pairwise_cons.mpr ⟨fun e he => ?_, ih hrest⟩
      rcases mem_insertEntry he with rfl | he
      · exact lt_of_le_of_ne (not_lt.mp hlt) (Ne.symm heq)
      · exact hhd e he

omit [LinearOrder α] in
theorem eraseFront_suffix (p : ℕ → α → Bool) (l : List (α × β)) :
    eraseFront p l <:+ l := by
  induction l with
  | nil => exact List.suffix_rfl
  | cons hd rest ih =>
    rw [eraseFront]
    split_ifs
    · exact ih.trans (List.suffix_cons hd rest)
    · exact List.suffix_rfl

/-- `insert` of an ordered map: an existing entry is kept. -/
def insert (m : OrderedMap α β) (k : α) (v : β) : OrderedMap α β :=
  ⟨insertEntry k v m.entries, insertEntry_sorted m.sorted⟩

/-- The map without a key. -/
def erase (m : OrderedMap α β) (k : α) : OrderedMap α β :=
  ⟨m.entries.filter fun e => e.1 ≠ k, m.sorted.filter _⟩

/-- `insert_or_assign`: an existing entry gets the new value. -/
def assign (m : OrderedMap α β) (k : α) (v : β) : OrderedMap α β := (m.erase k).insert k v

/-- The loop `for (iter = begin; iter != end;) if (p) erase(iter); else break;`. -/
def eraseFrontWhile (m : OrderedMap α β) (p : ℕ → α → Bool) : OrderedMap α β :=
  ⟨eraseFront p m.entries, m.sorted.sublist (eraseFront_suffix p m.entries).sublist⟩

/-- The entries of `m` whose keys `m'` no longer has. -/
def removed (m m' : OrderedMap α β) : List (α × β) :=
  m.entries.filter fun e => (m'.find? e.1).isNone

/-! ### Lookups -/

theorem eq_of_mem_entries {e e' : α × β} (he : e ∈ m.entries) (he' : e' ∈ m.entries)
    (h : e.1 = e'.1) : e = e' := by
  have hnd : (m.entries.map Prod.fst).Nodup :=
    List.pairwise_map.mpr (m.sorted.imp ne_of_lt)
  exact List.inj_on_of_nodup_map hnd he he' h

theorem find?_eq_some_iff : m.find? k = some v ↔ (k, v) ∈ m.entries := by
  rw [find?, Option.map_eq_some_iff]
  constructor
  · rintro ⟨⟨k₁, v₁⟩, h, rfl⟩
    have hk : k₁ = k := by simpa using List.find?_some h
    exact hk ▸ List.mem_of_find?_eq_some h
  · intro h
    have hsome : (m.entries.find? fun e => e.1 = k).isSome := by
      rw [List.find?_isSome]
      exact ⟨(k, v), h, by simp⟩
    obtain ⟨e, he⟩ := Option.isSome_iff_exists.mp hsome
    have hk : e.1 = k := by simpa using List.find?_some he
    have : e = (k, v) := eq_of_mem_entries (List.mem_of_find?_eq_some he) h hk
    exact ⟨e, he, by rw [this]⟩

theorem find?_eq_none_iff : m.find? k = none ↔ ∀ e ∈ m.entries, e.1 ≠ k := by
  rw [Option.eq_none_iff_forall_ne_some]
  constructor
  · rintro h ⟨k₁, v₁⟩ he rfl
    exact h v₁ (find?_eq_some_iff.mpr he)
  · intro h v hv
    exact h _ (find?_eq_some_iff.mp hv) rfl

theorem mem_keys : k ∈ m.keys ↔ ∃ v, m.find? k = some v := by
  simp only [keys, List.mem_map, find?_eq_some_iff]
  constructor
  · rintro ⟨⟨k₁, v₁⟩, he, rfl⟩
    exact ⟨v₁, he⟩
  · rintro ⟨v, hv⟩
    exact ⟨_, hv, rfl⟩

theorem entries_nodup (m : OrderedMap α β) : m.entries.Nodup :=
  m.sorted.imp fun hab he => absurd (congrArg Prod.fst he) (ne_of_lt hab)

/-- Two maps with the same lookups are the same map. -/
theorem ext_find? {m m' : OrderedMap α β} (h : ∀ k, m.find? k = m'.find? k) :
    m = m' := by
  have hmem : ∀ e : α × β, e ∈ m.entries ↔ e ∈ m'.entries := fun e => by
    rw [← find?_eq_some_iff (k := e.1), ← find?_eq_some_iff (k := e.1), h]
  have hperm : m.entries.Perm m'.entries :=
    (List.perm_ext_iff_of_nodup m.entries_nodup m'.entries_nodup).mpr hmem
  refine OrderedMap.ext (hperm.eq_of_pairwise (fun a b _ _ hab hba => ?_) m.sorted m'.sorted)
  exact absurd hab (not_lt.mpr hba.le)

@[simp] theorem find?_empty : (empty : OrderedMap α β).find? k = none := rfl

theorem mem_insertEntry_iff {l : List (α × β)} {e : α × β}
    (h : l.Pairwise fun a b => a.1 < b.1) :
    e ∈ insertEntry k v l ↔ e ∈ l ∨ e = (k, v) ∧ ∀ b ∈ l, b.1 ≠ k := by
  induction l with
  | nil => simp [insertEntry]
  | cons hd rest ih =>
    obtain ⟨hhd, hrest⟩ := List.pairwise_cons.mp h
    rw [insertEntry]
    split_ifs with hlt heq
    · have hne : ∀ b ∈ hd :: rest, b.1 ≠ k := fun b hb => by
        rcases List.mem_cons.mp hb with rfl | hb
        · exact (ne_of_lt hlt).symm
        · exact (ne_of_lt (hlt.trans (hhd b hb))).symm
      simp only [List.mem_cons] at hne ⊢
      tauto
    · have : ¬ ∀ b ∈ hd :: rest, b.1 ≠ k := fun hne => hne hd (by simp) heq.symm
      tauto
    · rw [List.mem_cons, ih hrest, List.mem_cons]
      have : (∀ b ∈ hd :: rest, b.1 ≠ k) ↔ ∀ b ∈ rest, b.1 ≠ k := by
        simp [Ne.symm heq]
      tauto

theorem find?_insert :
    (m.insert k v).find? k' = if k' = k then some ((m.find? k).getD v) else m.find? k' := by
  have hmem := @mem_insertEntry_iff α β _ k v m.entries (h := m.sorted)
  refine Option.ext fun w => ?_
  rw [find?_eq_some_iff, insert, hmem]
  split_ifs with hk
  · subst hk
    rcases hf : m.find? k' with _ | u
    · have := find?_eq_none_iff.mp hf
      simp only [Prod.mk.injEq, true_and, Option.getD_none, Option.some_inj]
      constructor
      · rintro (h | ⟨rfl, _⟩)
        · exact absurd rfl (this _ h)
        · rfl
      · rintro rfl
        exact Or.inr ⟨rfl, this⟩
    · have hu := find?_eq_some_iff.mp hf
      simp only [Prod.mk.injEq, true_and, Option.getD_some, Option.some_inj]
      constructor
      · rintro (h | ⟨_, h⟩)
        · exact (congrArg Prod.snd (eq_of_mem_entries h hu rfl)).symm
        · exact absurd rfl (h _ hu)
      · rintro rfl
        exact Or.inl hu
  · rw [find?_eq_some_iff]
    simp [hk]

theorem find?_erase : (m.erase k).find? k' = if k' = k then none else m.find? k' := by
  refine Option.ext fun w => ?_
  rw [find?_eq_some_iff, erase]
  split_ifs with hk
  · simp [hk]
  · simp [hk, find?_eq_some_iff]

theorem find?_eraseFrontWhile_sub {p : ℕ → α → Bool}
    (h : (m.eraseFrontWhile p).find? k = some v) : m.find? k = some v :=
  find?_eq_some_iff.mpr ((eraseFront_suffix p m.entries).subset (find?_eq_some_iff.mp h))

theorem find?_assign : (m.assign k v).find? k' = if k' = k then some v else m.find? k' := by
  rw [assign, find?_insert, find?_erase, find?_erase, if_pos rfl, Option.getD_none]
  split_ifs
  · rfl
  · rfl

/-- Erasing a fresh key again leaves the map as it was. -/
theorem erase_insert (h : m.find? k = none) : (m.insert k v).erase k = m := by
  refine ext_find? fun k' => ?_
  rw [find?_erase, find?_insert]
  split_ifs with hk
  · rw [hk, h]
  · rfl

/-- Erasing a key the map does not have changes nothing. -/
theorem erase_of_find?_none (h : m.find? k = none) : m.erase k = m := by
  refine ext_find? fun k' => ?_
  rw [find?_erase]
  split_ifs with hk
  · rw [hk, h]
  · rfl

/-! ### Sizes and the front -/

@[simp] theorem size_empty : (empty : OrderedMap α β).size = 0 := rfl

theorem length_insertEntry {l : List (α × β)} (h : ∀ b ∈ l, b.1 ≠ k) :
    (insertEntry k v l).length = l.length + 1 := by
  induction l with
  | nil => rfl
  | cons hd rest ih =>
    have hne : ¬k = hd.1 := fun heq => h hd (by simp) heq.symm
    rw [insertEntry]
    split_ifs
    · simp
    · simp [ih fun b hb => h b (by simp [hb])]

theorem size_insert (h : m.find? k = none) : (m.insert k v).size = m.size + 1 :=
  length_insertEntry (find?_eq_none_iff.mp h)

theorem size_erase_le : (m.erase k).size ≤ m.size := List.length_filter_le _ _

theorem size_eraseFrontWhile_le (p : ℕ → α → Bool) :
    (m.eraseFrontWhile p).size ≤ m.size :=
  (eraseFront_suffix p m.entries).length_le

omit [LinearOrder α] in
theorem eraseFront_size {cap : ℕ} (l : List (α × β)) :
    eraseFront (fun n _ => decide (cap ≤ n)) l = l.drop (l.length + 1 - cap) := by
  induction l with
  | nil => simp [eraseFront]
  | cons hd rest ih =>
    rw [eraseFront]
    split_ifs with hle
    · have hle : cap ≤ rest.length + 1 := of_decide_eq_true hle
      rw [ih, show (hd :: rest).length + 1 - cap = (rest.length + 1 - cap) + 1 by
        simp only [List.length_cons]; omega, List.drop_succ_cons]
    · have hlt : ¬cap ≤ rest.length + 1 := fun h => hle (decide_eq_true h)
      rw [show (hd :: rest).length + 1 - cap = 0 by simp only [List.length_cons]; omega,
        List.drop_zero]

/-- Erasing from the front while at least `cap` entries are left drops the
smallest keys. -/
theorem entries_eraseFrontWhile_size {cap : ℕ} :
    (m.eraseFrontWhile fun n _ => decide (cap ≤ n)).entries =
      m.entries.drop (m.size + 1 - cap) :=
  eraseFront_size m.entries

theorem size_eraseFrontWhile_size {cap : ℕ} :
    (m.eraseFrontWhile fun n _ => decide (cap ≤ n)).size = min m.size (cap - 1) := by
  rw [size, entries_eraseFrontWhile_size, List.length_drop]
  simp only [size]
  omega

theorem eraseFrontWhile_size_of_lt {cap : ℕ} (h : m.size < cap) :
    (m.eraseFrontWhile fun n _ => decide (cap ≤ n)) = m := by
  refine OrderedMap.ext ?_
  rw [entries_eraseFrontWhile_size, show m.size + 1 - cap = 0 by omega,
    List.drop_zero]

theorem exists_find?_of_size_pos (h : 0 < m.size) : ∃ k v, m.find? k = some v := by
  obtain ⟨e, rest, hcons⟩ := List.exists_cons_of_length_pos h
  exact ⟨e.1, e.2, find?_eq_some_iff.mpr (by rw [hcons]; exact List.mem_cons_self)⟩

theorem begin?_le {e : α × β} (hb : m.begin? = some e) (h : m.find? k = some v) : e.1 ≤ k := by
  obtain ⟨rest, hrest⟩ := List.head?_eq_some_iff.mp hb
  have hs := m.sorted
  have hmem := find?_eq_some_iff.mp h
  rw [hrest] at hs hmem
  rcases List.mem_cons.mp hmem with rfl | hmem
  · exact le_rfl
  · exact ((List.pairwise_cons.mp hs).1 _ hmem).le

theorem begin?_map_fst : m.begin?.map Prod.fst = m.keys.head? := by
  rw [begin?, keys, List.head?_map]

/-- A key greater than all others is inserted at the end. -/
theorem keys_insert_of_lt (h : ∀ k' ∈ m.keys, k' < k) : (m.insert k v).keys = m.keys ++ [k] := by
  have key : ∀ l : List (α × β), (∀ e ∈ l, e.1 < k) → insertEntry k v l = l ++ [(k, v)] := by
    intro l
    induction l with
    | nil => exact fun _ => rfl
    | cons e rest ih =>
      intro hlt
      have he := hlt e List.mem_cons_self
      rw [insertEntry, if_neg he.not_gt, if_neg he.ne',
        ih fun e he => hlt e (List.mem_cons_of_mem _ he), List.cons_append]
  have hent : ∀ e ∈ m.entries, e.1 < k := fun e he => h e.1 (List.mem_map_of_mem he)
  rw [keys, insert]
  show (insertEntry k v m.entries).map Prod.fst = _
  rw [key m.entries hent, List.map_append, keys]
  rfl

/-- Erasing the smallest key leaves the others. -/
theorem keys_erase_of_head? (h : m.keys.head? = some k) : m.keys = k :: (m.erase k).keys := by
  obtain ⟨ks, hks⟩ := List.head?_eq_some_iff.mp h
  rw [keys] at hks
  obtain ⟨e, rest, hent, rfl, rfl⟩ := List.map_eq_cons_iff.mp hks
  have hs := m.sorted
  rw [hent] at hs
  have hne : ∀ b ∈ rest, decide (b.1 ≠ e.1) = true := fun b hb =>
    decide_eq_true ((List.pairwise_cons.mp hs).1 b hb).ne'
  show m.entries.map Prod.fst = e.1 :: (m.entries.filter _).map Prod.fst
  rw [hent, List.filter_cons_of_neg (by simp), List.filter_eq_self.mpr hne, List.map_cons]

/-- Erasing a full map down below its size drops the smallest key. -/
theorem eraseFrontWhile_size_full {cap : ℕ} {e : α × β} (h : m.size = cap)
    (hb : m.begin? = some e) :
    (m.eraseFrontWhile fun n _ => decide (cap ≤ n)) = m.erase e.1 := by
  obtain ⟨rest, hrest⟩ := List.head?_eq_some_iff.mp hb
  have hs := m.sorted
  rw [hrest] at hs
  have hne : ∀ b ∈ rest, decide (b.1 ≠ e.1) = true := fun b hbm =>
    decide_eq_true ((List.pairwise_cons.mp hs).1 b hbm).ne'
  refine OrderedMap.ext ?_
  rw [entries_eraseFrontWhile_size, show m.size + 1 - cap = 1 by omega, erase]
  show m.entries.drop 1 = m.entries.filter _
  rw [hrest, List.filter_cons_of_neg (by simp), List.filter_eq_self.mpr hne]
  rfl

theorem mem_removed {m' : OrderedMap α β} {e : α × β} :
    e ∈ m.removed m' ↔ m.find? e.1 = some e.2 ∧ m'.find? e.1 = none := by
  rw [removed, List.mem_filter, find?_eq_some_iff, Option.isNone_iff_eq_none]

/-- Erasing from the front below a key keeps the entries from that key on. -/
theorem entries_eraseFrontWhile_lt :
    (m.eraseFrontWhile fun _ k' => decide (k' < k)).entries =
      m.entries.filter fun e => k ≤ e.1 := by
  have key : ∀ l : List (α × β), (l.Pairwise fun a b => a.1 < b.1) →
      eraseFront (fun _ k' => decide (k' < k)) l = l.filter fun e => k ≤ e.1 := by
    intro l
    induction l with
    | nil => intro _; rfl
    | cons hd rest ih =>
      intro h
      obtain ⟨hhd, hrest⟩ := List.pairwise_cons.mp h
      rw [eraseFront]
      split_ifs with hlt
      · have hlt : hd.1 < k := of_decide_eq_true hlt
        rw [ih hrest, List.filter_cons_of_neg (by simpa using hlt)]
      · have hle : k ≤ hd.1 := not_lt.mp fun h => hlt (decide_eq_true h)
        refine (List.filter_eq_self.mpr fun e he => ?_).symm
        rcases List.mem_cons.mp he with rfl | he
        · exact decide_eq_true hle
        · exact decide_eq_true (hle.trans (hhd e he).le)
  exact key m.entries m.sorted

theorem find?_eraseFrontWhile_lt :
    (m.eraseFrontWhile fun _ k₁ => decide (k₁ < k)).find? k' =
      if k' < k then none else m.find? k' := by
  refine Option.ext fun w => ?_
  rw [find?_eq_some_iff, entries_eraseFrontWhile_lt, List.mem_filter]
  split_ifs with hk
  · simp [not_le.mpr hk]
  · simp [not_lt.mp hk, find?_eq_some_iff]

/-! ### Entries up to their order -/

theorem perm_cons_erase (h : (k, v) ∈ m.entries) :
    m.entries.Perm ((k, v) :: (m.erase k).entries) := by
  have hnotmem : (k, v) ∉ (m.erase k).entries := by simp [erase]
  refine (List.perm_ext_iff_of_nodup m.entries_nodup
    (List.nodup_cons.mpr ⟨hnotmem, entries_nodup _⟩)).mpr fun e => ?_
  rw [List.mem_cons, erase, List.mem_filter, decide_eq_true_iff]
  by_cases hk : e.1 = k
  · constructor
    · exact fun he => .inl (eq_of_mem_entries he h hk)
    · rintro (rfl | ⟨-, hne⟩)
      · exact h
      · exact absurd hk hne
  · constructor
    · exact fun he => .inr ⟨he, hk⟩
    · rintro (rfl | ⟨he, -⟩)
      · exact absurd rfl hk
      · exact he

theorem assign_perm (h : ∀ e ∈ m.entries, e.1 ≠ k) :
    (m.assign k v).entries.Perm ((k, v) :: m.entries) := by
  have hnotmem : (k, v) ∉ m.entries := fun he => h _ he rfl
  rw [assign, erase_of_find?_none (find?_eq_none_iff.mpr h)]
  refine (List.perm_ext_iff_of_nodup (entries_nodup _)
    (List.nodup_cons.mpr ⟨hnotmem, m.entries_nodup⟩)).mpr fun e => ?_
  rw [insert, mem_insertEntry_iff m.sorted, List.mem_cons, or_comm, and_iff_left h]

theorem insert_perm (h : m.find? k = none) :
    (m.insert k v).entries.Perm ((k, v) :: m.entries) := by
  have hperm := assign_perm (v := v) (find?_eq_none_iff.mp h)
  rwa [assign, erase_of_find?_none h] at hperm

/-- The new value stands in the place of the one that was there. -/
theorem assign_perm_cons_erase :
    (m.assign k v).entries.Perm ((k, v) :: (m.erase k).entries) :=
  insert_perm (by rw [find?_erase, if_pos rfl])

/-! ### Initializer lists -/

/-- The first of the entries of a key counts. -/
def ofList (l : List (α × β)) : OrderedMap α β := l.foldl (fun m e => m.insert e.1 e.2) .empty

theorem find?_foldl_insert (l : List (α × β)) (m : OrderedMap α β) :
    (l.foldl (fun m e => m.insert e.1 e.2) m).find? k =
      (m.find? k).or ((l.find? fun e => e.1 = k).map Prod.snd) := by
  induction l generalizing m with
  | nil => simp
  | cons e l ih =>
    rw [List.foldl_cons, ih, find?_insert, List.find?_cons]
    by_cases he : e.1 = k
    · subst he
      cases m.find? e.1 <;> simp
    · simp [he, Ne.symm he]

theorem find?_ofList (l : List (α × β)) :
    (ofList l).find? k = (l.find? fun e => e.1 = k).map Prod.snd := by
  rw [ofList, find?_foldl_insert]
  rfl

/-! ### All values -/

variable {γ : Type}

/-- The loop `for (auto& entry : m)` over values that it changes. -/
def mapValues (m : OrderedMap α β) (f : β → γ) : OrderedMap α γ :=
  ⟨m.entries.map fun e => (e.1, f e.2), List.pairwise_map.mpr m.sorted⟩

theorem find?_mapValues (f : β → γ) : (m.mapValues f).find? k = (m.find? k).map f := by
  rw [find?, find?, mapValues, List.find?_map, Option.map_map, Option.map_map]
  rfl

end OrderedMap
