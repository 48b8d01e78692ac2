/-
The output lists are in order.

MediaPipe runs the callbacks of one output stream one at a time and with increasing
timestamps (`Serial`); the callbacks of different streams interleave at every lock
boundary.  A callback that hands on a frame is still running, so it is the latest one
of its stream (`InOrder`); every frame already in the list of its group was delivered
by that same stream before, hence under an older timestamp (`older_of_listed`).

* `Sorted` — the lists are strictly decreasing in timestamp;
* `outputOrder` — that, the depth of the lists, and what it means for the frames the
  consumers peek at.
-/
import HandTracking.Delivery

namespace XGraph

open Transition

variable {P : Type} {L : Layout} {s s' : RunningGraph P} {a : Action P} {es es' : List Event}

/-- A callback comes from an output stream of the graph, after the callbacks of the
same stream have returned and with a greater timestamp than theirs. -/
def Serial (L : Layout) (s : RunningGraph P) : Action P → Prop
  | .callBackInferenceResult o p => o < L.outputStreamNum ∧
      ∀ cb ∈ s.callBacks, cb.outputPacksOrder = o →
        cb.pc = .returned ∧ cb.packet.timestamp < p.timestamp
  | _ => True

instance (L : Layout) (s : RunningGraph P) : ∀ a, Decidable (Serial L s a)
  | .callBackInferenceResult o p => inferInstanceAs (Decidable (o < L.outputStreamNum ∧
      ∀ cb ∈ s.callBacks, cb.outputPacksOrder = o →
        cb.pc = .returned ∧ cb.packet.timestamp < p.timestamp))
  | .setInputStreamCache _ _ => .isTrue trivial
  | .clearInputStreamCache _ => .isTrue trivial
  | .runCallBack _ => .isTrue trivial
  | .getOutputStreamCache _ _ => .isTrue trivial
  | .runConsumer _ => .isTrue trivial
  | .setGraphStarted _ => .isTrue trivial

theorem Serial.atMostOnce (h : Serial L s a) : AtMostOnce L s a := by
  cases a with
  | callBackInferenceResult o p =>
    refine ⟨h.1, fun cb hmem heq => ?_⟩
    exact absurd heq.2 (h.2 cb hmem heq.1).2.ne
  | _ => trivial

/-- The callbacks of one stream: only the latest may be running, and the timestamps
increase. -/
def InOrder (s : RunningGraph P) : Prop :=
  ∀ (i j : ℕ) (cb cb' : CallBack P), i < j → s.callBacks[i]? = some cb →
    s.callBacks[j]? = some cb' → cb.outputPacksOrder = cb'.outputPacksOrder →
    cb.pc = .returned ∧ cb.packet.timestamp < cb'.packet.timestamp

theorem inOrder_init : InOrder (.init : RunningGraph P) := by
  intro i j cb cb' _ hi
  cases hi

/-- A callback that has returned takes no step. -/
theorem Shape.returned (h : Shape L s a es s') {i : ℕ} {cb : CallBack P}
    (hi : s.callBacks[i]? = some cb) (hpc : cb.pc = .returned) : s'.callBacks[i]? = some cb := by
  cases h with
  | registered _ _ calls => rw [calls, hi]
  | called _ calls =>
    have hlt : i < s.callBacks.length := (List.getElem?_eq_some_iff.mp hi).choose
    rw [calls, List.getElem?_append_left hlt, hi]
  | @matched j c _ _ _ hj pc _ _ _ _ _ _ calls =>
    have hij : i ≠ j := by
      rintro rfl
      obtain rfl := Option.some_inj.mp (hi.symm.trans hj)
      rw [hpc] at pc
      cases pc
    rw [calls, getElem?_set_of_some hj, if_neg hij, hi]
  | @advanced j c _ _ hj running _ calls =>
    have hij : i ≠ j := by
      rintro rfl
      obtain rfl := Option.some_inj.mp (hi.symm.trans hj)
      exact running hpc
    rw [calls, getElem?_set_of_some hj, if_neg hij, hi]
  | quiet calls => rw [calls, hi]

theorem InOrder.step (ho : InOrder s) (ha : Serial L s a) (h : Shape L s a es s') :
    InOrder s' := by
  intro i j cb cb' hij hi hj horder
  rcases h.calls_cases hi with ⟨c, hc, hco, hcp⟩ | ⟨hlen, _⟩
  · rcases h.calls_cases hj with ⟨c', hc', hco', hcp'⟩ | ⟨_, rfl⟩
    · obtain ⟨hret, hlt⟩ := ho i j c c' hij hc hc' (by rw [hco, hco', horder])
      obtain rfl := Option.some_inj.mp (hi.symm.trans (h.returned hc hret))
      exact ⟨hret, by rw [← hcp']; exact hlt⟩
    · obtain ⟨hret, hlt⟩ := ha.2 c (List.mem_of_getElem? hc) (hco.trans horder)
      obtain rfl := Option.some_inj.mp (hi.symm.trans (h.returned hc hret))
      exact ⟨hret, hlt⟩
  · rcases h.calls_cases hj with ⟨c', hc', _, _⟩ | ⟨hlen', _⟩
    · have hlt : j < s.callBacks.length := (List.getElem?_eq_some_iff.mp hc').choose
      omega
    · omega

/-! ### The lists -/

/-- Frame `f'` was registered under an older timestamp than frame `f`. -/
def Older (es : List Event) (f' f : ℕ) : Prop :=
  ∃ t' t, .registered t' f' ∈ es ∧ .registered t f ∈ es ∧ t' < t

/-- The lists hold frames that were pushed to them, the newest first. -/
structure Sorted (es : List Event) (s : RunningGraph P) : Prop where
  listed : ∀ g f, f ∈ s.graph.outputStreamGroudCache g → ∃ i, .pushed i g f ∈ es
  sorted : ∀ g, (s.graph.outputStreamGroudCache g).Pairwise fun f f' => Older es f' f

theorem Older.mono {f' f : ℕ} (h : Older es f' f) : Older (es ++ es') f' f := by
  obtain ⟨t', t, h', h, hlt⟩ := h
  exact ⟨t', t, List.mem_append_left _ h', List.mem_append_left _ h, hlt⟩

/-- A callback inside `MoveOutputCache` carries a newer frame than all those in the
list of its group. -/
theorem older_of_listed (hs : Sound L es s) (hp : Pushed L es s) (ho : InOrder s)
    (hsorted : Sorted es s) {i f f' : ℕ} {cb : CallBack P} (hi : s.callBacks[i]? = some cb)
    (hpc : cb.pc.Pending f)
    (hf' : f' ∈ s.graph.outputStreamGroudCache (L.groudIndex cb.outputPacksOrder)) :
    Older es f' f := by
  obtain ⟨hands, hf⟩ := hs.handed.pending i cb f hi hpc
  obtain ⟨i', he⟩ := hsorted.listed _ f' hf'
  obtain ⟨cb', hi', hg, hands', hcache', hpast⟩ := hp.done i' _ f' he
  have hne : f' ≠ f := by
    rintro rfl
    obtain rfl := hs.handed.unique i' i cb' cb f' hi' hi hands' hands hcache' hf hg
    obtain rfl := Option.some_inj.mp (hi.symm.trans hi')
    exact hpast.not_pending hpc
  -- the stream of the callback has delivered the listed frame too
  obtain ⟨k, c, hk, hco, hck⟩ :=
    hs.handed.complete i' cb' f' hi' hands' hcache' _ (hs.distinct.lt i cb hi) hg.symm
  have hki : k < i := by
    rcases lt_trichotomy k i with hlt | rfl | hgt
    · exact hlt
    · obtain rfl := Option.some_inj.mp (hi.symm.trans hk)
      exact absurd (Option.some_inj.mp (hck.symm.trans hf)) hne
    · have hret := (ho i k cb c hgt hi hk hco.symm).1
      rw [hret] at hpc
      simp [Pc.Pending] at hpc
  exact ⟨_, _, hs.recorded.matched k c f' hk hck, hs.recorded.matched i cb f hi hf,
    (ho k i c cb hki hk hi hco).2⟩

theorem sorted_init : Sorted [] (.init : RunningGraph P) where
  listed _ _ hf := absurd hf List.not_mem_nil
  sorted _ := List.Pairwise.nil

/-- What is left of a list stays in order. -/
theorem Sorted.sublist (h : Sorted es s) {g : ℕ} {l : List ℕ}
    (hl : l.Sublist (s.graph.outputStreamGroudCache g)) :
    (∀ f ∈ l, ∃ i, .pushed i g f ∈ es ++ es') ∧
      l.Pairwise fun f f' => Older (es ++ es') f' f := by
  constructor
  · intro f hf
    obtain ⟨i, he⟩ := h.listed g f (hl.subset hf)
    exact ⟨i, List.mem_append_left _ he⟩
  · exact ((h.sorted g).sublist hl).imp Older.mono

theorem Sorted.step (h : Sorted es s) (hs : Sound L es s) (hp : Pushed L es s)
    (ho : InOrder s) (heff : Effect L s a es' s') : Sorted (es ++ es') s' := by
  have key : ∀ g, (∀ f ∈ s'.graph.outputStreamGroudCache g, ∃ i, .pushed i g f ∈ es ++ es') ∧
      (s'.graph.outputStreamGroudCache g).Pairwise fun f f' => Older (es ++ es') f' f := by
    intro g
    cases heff.outShape with
    | @pushed i cb f rest hi pc hrest _ out event =>
      rw [out]
      by_cases hg : g = L.groudIndex cb.outputPacksOrder
      · subst hg
        rw [Function.update_self]
        have hsub : _ ∧ rest.Pairwise fun f f' => Older (es ++ es') f' f :=
          h.sublist hrest.sublist
        obtain ⟨hlisted, hsorted⟩ := hsub
        refine ⟨fun f' hf' => ?_, List.pairwise_cons.mpr ⟨fun f' hf' => ?_, hsorted⟩⟩
        · rcases List.mem_cons.mp hf' with rfl | hf'
          · exact ⟨i, List.mem_append_right _ (event ▸ List.mem_singleton_self _)⟩
          · exact hlisted f' hf'
        · exact (older_of_listed hs hp ho h hi (Or.inr pc) (hrest.subset hf')).mono
      · rw [Function.update_of_ne hg]
        exact h.sublist (List.Sublist.refl _)
    | @taken j c hj out =>
      rw [out]
      by_cases hg : g = c.groudIndex
      · subst hg
        rw [Function.update_self]
        split_ifs
        · exact h.sublist (List.Sublist.refl _)
        · exact h.sublist (List.tail_sublist _)
      · rw [Function.update_of_ne hg]
        exact h.sublist (List.Sublist.refl _)
    | asked _ out =>
      rw [out]
      exact h.sublist (List.Sublist.refl _)
    | same out =>
      rw [out]
      exact h.sublist (List.Sublist.refl _)
  exact ⟨fun g => (key g).1, fun g => (key g).2⟩

/-- The lists respect the depth of their groups. -/
def WithinDepth (L : Layout) (s : RunningGraph P) : Prop :=
  ∀ g < L.groudSize, (s.graph.outputStreamGroudCache g).length ≤ (L.cleanPolicy g).maxDepth

theorem WithinDepth.step (h : WithinDepth L s)
    (hdepth : ∀ g < L.groudSize, 1 ≤ (L.cleanPolicy g).maxDepth) (heff : Effect L s a es s') :
    WithinDepth L s' := by
  intro g hg
  cases heff.outShape with
  | @pushed i cb f rest hi pc hrest hmove out =>
    rw [out]
    by_cases hgi : g = L.groudIndex cb.outputPacksOrder
    · subst hgi
      rw [Function.update_self]
      exact StreamCacheCleanStrategy.move_pushed_length (hdepth _ hg) (h _ hg) hmove
    · rw [Function.update_of_ne hgi]
      exact h g hg
  | @taken j c hj out =>
    rw [out]
    by_cases hgi : g = c.groudIndex
    · subst hgi
      rw [Function.update_self]
      split_ifs
      · exact h _ hg
      · exact (List.tail_sublist _).length_le.trans (h _ hg)
    · rw [Function.update_of_ne hgi]
      exact h g hg
  | asked _ out =>
    rw [out]
    exact h g hg
  | same out =>
    rw [out]
    exact h g hg

/-! ### What the consumers see -/

/-- The frames that consumers of group `g` got, in the order they got them. -/
def peeks (g : ℕ) (es : List Event) : List ℕ :=
  es.filterMap fun
    | .got g' _ (some f) => if g' = g then some f else none
    | _ => none

/-- Frame `f'` was registered under a timestamp at least that of frame `f`. -/
def NotOlder (es : List Event) (f f' : ℕ) : Prop :=
  ∃ t t', .registered t f ∈ es ∧ .registered t' f' ∈ es ∧ t ≤ t'

theorem NotOlder.mono {f f' : ℕ} (h : NotOlder es f f') : NotOlder (es ++ es') f f' := by
  obtain ⟨t, t', h, h', hle⟩ := h
  exact ⟨t, t', List.mem_append_left _ h, List.mem_append_left _ h', hle⟩

theorem NotOlder.trans_older (hr : Recorded es s) {f f' f'' : ℕ} (h : NotOlder es f f')
    (h' : Older es f' f'') : NotOlder es f f'' := by
  obtain ⟨t, t₁, ht, ht₁, hle⟩ := h
  obtain ⟨t₂, t'', ht₂, ht'', hlt⟩ := h'
  obtain rfl := hr.unique _ _ f' ht₁ ht₂
  exact ⟨t, t'', ht, ht'', hle.trans hlt.le⟩

theorem peeks_eq_nil {g : ℕ} (h : ∀ g r f, .got g r (some f) ∉ es) : peeks g es = [] := by
  refine List.filterMap_eq_nil_iff.mpr fun e he => ?_
  split
  · rename_i g' r f
    exact absurd he (h g' r f)
  · rfl

/-- When nobody pops group `g`, the frames seen so far are no newer than the front of
its list. -/
structure Peeked (g : ℕ) (es : List Event) (s : RunningGraph P) : Prop where
  reuse : ∀ c ∈ s.consumers, c.groudIndex = g → c.reuse = true
  front : ∀ f ∈ peeks g es, ∃ f₀ rest,
    s.graph.outputStreamGroudCache g = f₀ :: rest ∧ NotOlder es f f₀
  sorted : (peeks g es).Pairwise (NotOlder es)

theorem peeked_init (g : ℕ) : Peeked g [] (.init : RunningGraph P) where
  reuse _ hc := absurd hc List.not_mem_nil
  front _ hf := absurd hf List.not_mem_nil
  sorted := List.Pairwise.nil

/-- A step that shows nobody a frame of group `g` and leaves the front of its list. -/
theorem Peeked.of_nil {g : ℕ} (h : Peeked g es s) (hnil : peeks g es' = [])
    (hreuse : ∀ c ∈ s'.consumers, c.groudIndex = g → c.reuse = true)
    (hfront : ∀ f₀ rest, s.graph.outputStreamGroudCache g = f₀ :: rest →
      ∀ f, NotOlder es f f₀ → ∃ f₀' rest',
        s'.graph.outputStreamGroudCache g = f₀' :: rest' ∧ NotOlder (es ++ es') f f₀') :
    Peeked g (es ++ es') s' := by
  have happ : peeks g (es ++ es') = peeks g es := by
    rw [peeks, List.filterMap_append]
    show peeks g es ++ peeks g es' = peeks g es
    rw [hnil, List.append_nil]
  refine ⟨hreuse, fun f hf => ?_, ?_⟩
  · rw [happ] at hf
    obtain ⟨f₀, rest, hlist, hle⟩ := h.front f hf
    exact hfront f₀ rest hlist f hle
  · rw [happ]
    exact h.sorted.imp NotOlder.mono

theorem registered_of_listed (hs : Sound L es s) (hp : Pushed L es s) (h : Sorted es s)
    {g f : ℕ} (hf : f ∈ s.graph.outputStreamGroudCache g) : ∃ t, .registered t f ∈ es := by
  obtain ⟨i, he⟩ := h.listed g f hf
  obtain ⟨cb, hi, _, _, hcache, _⟩ := hp.done i g f he
  exact ⟨_, hs.recorded.matched i cb f hi hcache⟩

/-- A step that shows somebody the front of the list of group `g` and leaves it there. -/
theorem Peeked.snoc {g f₀ : ℕ} {rest : List ℕ} (h : Peeked g es s) (hs : Sound L es s)
    (hp : Pushed L es s) (hsorted : Sorted es s)
    (hreuse : ∀ c ∈ s'.consumers, c.groudIndex = g → c.reuse = true)
    (hsame : s'.graph.outputStreamGroudCache g = s.graph.outputStreamGroudCache g)
    (hlist : s.graph.outputStreamGroudCache g = f₀ :: rest) (hpeek : peeks g es' = [f₀]) :
    Peeked g (es ++ es') s' := by
  have happ : peeks g (es ++ es') = peeks g es ++ [f₀] := by
    rw [← hpeek, peeks, List.filterMap_append]
    rfl
  obtain ⟨t, ht⟩ := registered_of_listed hs hp hsorted (g := g) (f := f₀)
    (by rw [hlist]; exact List.mem_cons_self)
  have hself : NotOlder (es ++ es') f₀ f₀ :=
    ⟨t, t, List.mem_append_left _ ht, List.mem_append_left _ ht, le_rfl⟩
  have hle : ∀ f ∈ peeks g es, NotOlder (es ++ es') f f₀ := by
    intro f hf
    obtain ⟨f₁, rest₁, hlist₁, hle⟩ := h.front f hf
    rw [hlist] at hlist₁
    obtain ⟨rfl, _⟩ := List.cons.inj hlist₁
    exact hle.mono
  refine ⟨hreuse, fun f hf => ?_, ?_⟩
  · rw [happ] at hf
    refine ⟨f₀, rest, hsame.trans hlist, ?_⟩
    rcases List.mem_append.mp hf with hf | hf
    · exact hle f hf
    · rw [List.mem_singleton.mp hf]
      exact hself
  · rw [happ, List.pairwise_append]
    refine ⟨h.sorted.imp NotOlder.mono, List.pairwise_singleton _ _, fun f hf f' hf' => ?_⟩
    rw [List.mem_singleton.mp hf']
    exact hle f hf

theorem Peeked.step {g : ℕ} (h : Peeked g es s) (hs : Sound L es s) (hp : Pushed L es s)
    (ho : InOrder s) (hsorted : Sorted es s) (ha : a ≠ .getOutputStreamCache g false)
    (heff : Effect L s a es' s') : Peeked g (es ++ es') s' := by
  cases heff.outShape with
  | @pushed i cb f rest hi pc hrest _ out event consumers =>
    refine h.of_nil (by rw [event]; rfl) (by rw [consumers]; exact h.reuse) ?_
    -- what comes to the front of the list is not older
    intro f₀ rest₀ hlist p hle
    rw [out]
    by_cases hg : g = L.groudIndex cb.outputPacksOrder
    · subst hg
      rw [Function.update_self]
      have hmem : f₀ ∈ s.graph.outputStreamGroudCache (L.groudIndex cb.outputPacksOrder) := by
        rw [hlist]
        exact List.mem_cons_self
      have holder := older_of_listed hs hp ho hsorted hi (Or.inr pc) hmem
      exact ⟨f, rest, rfl, (hle.trans_older hs.recorded holder).mono⟩
    · rw [Function.update_of_ne hg]
      exact ⟨f₀, rest₀, hlist, hle.mono⟩
  | @taken j c hj out event consumers =>
    have hreuse : ∀ c ∈ s'.consumers, c.groudIndex = g → c.reuse = true := by
      intro c' hc' hg
      rw [consumers] at hc'
      rcases List.mem_or_eq_of_mem_set hc' with hc' | rfl
      · exact h.reuse c' hc' hg
      · exact h.reuse c (List.mem_of_getElem? hj) hg
    -- all consumers of the group leave the frame in the list
    by_cases hg : c.groudIndex = g
    · have hc : c.reuse = true := h.reuse c (List.mem_of_getElem? hj) hg
      have hsame : s'.graph.outputStreamGroudCache g = s.graph.outputStreamGroudCache g := by
        rw [out, ← hg, Function.update_self, if_pos hc]
      subst hg
      rcases hlist : s.graph.outputStreamGroudCache c.groudIndex with _ | ⟨f₀, rest⟩
      · refine h.of_nil (by rw [event, hlist]; rfl) hreuse ?_
        intro f₀ rest hcons
        rw [hlist] at hcons
        cases hcons
      · have hpeek : peeks c.groudIndex es' = [f₀] := by
          rw [event, hlist]
          simp [peeks]
        exact h.snoc hs hp hsorted hreuse hsame hlist hpeek
    · refine h.of_nil ?_ hreuse ?_
      · rw [event]
        rcases s.graph.outputStreamGroudCache c.groudIndex with _ | ⟨f₀, rest⟩
        · rfl
        · simp [peeks, hg]
      · intro f₀ rest hlist f hle
        exact ⟨f₀, rest, by rw [out, Function.update_of_ne (Ne.symm hg), hlist], hle.mono⟩
  | @asked g' reuse locking action out event consumers =>
    refine h.of_nil (peeks_eq_nil event) ?_ ?_
    · intro c hc hg
      rw [consumers] at hc
      rcases List.mem_append.mp hc with hc | hc
      · exact h.reuse c hc hg
      · rw [List.mem_singleton] at hc
        subst hc
        -- a call that takes frames away is excluded
        cases reuse with
        | true => rfl
        | false =>
          obtain rfl : g' = g := hg
          exact absurd action ha
    · intro f₀ rest hlist f hle
      exact ⟨f₀, rest, by rw [out, hlist], hle.mono⟩
  | same out event consumers =>
    refine h.of_nil (peeks_eq_nil event) (by rw [consumers]; exact h.reuse) ?_
    intro f₀ rest hlist f hle
    exact ⟨f₀, rest, by rw [out, hlist], hle.mono⟩

/-! ### Every run -/

/-- The invariants of the runs in which the callbacks of a stream are serial. -/
structure Ordered (L : Layout) (es : List Event) (s : RunningGraph P) : Prop where
  sound : Sound L es s
  pushed : Pushed L es s
  inOrder : InOrder s
  sorted : Sorted es s

theorem ordered_init : Ordered L [] (.init : RunningGraph P) where
  sound := sound_init
  pushed := pushed_init
  inOrder := inOrder_init
  sorted := sorted_init

theorem Ordered.step (hL : L.Synced) (h : Ordered L es s) (ha : Serial L s a)
    (heff : Effect L s a es' s') : Ordered L (es ++ es') s' where
  sound := h.sound.step hL ha.atMostOnce heff
  pushed := h.pushed.step h.sound heff
  inOrder := h.inOrder.step ha (heff.shape h.sound.fresh)
  sorted := h.sorted.step h.sound h.pushed h.inOrder heff

theorem ordered_of_run (hL : L.Synced) {as : List (Action P)}
    (run : Run (step L) (Serial L) .init as es s) : Ordered L es s :=
  run.invariant ordered_init fun _ _ _ _ _ h ha hstep => h.step hL ha (step_effect hstep)

theorem withinDepth_of_run {ok : RunningGraph P → Action P → Prop} {as : List (Action P)}
    (hdepth : ∀ g < L.groudSize, 1 ≤ (L.cleanPolicy g).maxDepth)
    (run : Run (step L) ok .init as es s) : WithinDepth L s :=
  run.state_invariant (I := WithinDepth L) (fun _ _ => Nat.zero_le _)
    fun _ _ _ _ h _ hstep => h.step hdepth (step_effect hstep)

theorem peeked_of_run (hL : L.Synced) {as : List (Action P)} {g : ℕ}
    (run : Run (step L) (Serial L) .init as es s) (hpop : .getOutputStreamCache g false ∉ as) :
    Peeked g es s := by
  have hrun := run.guard_of_mem (p := fun a => a ≠ .getOutputStreamCache g false)
    fun a ha heq => hpop (heq ▸ ha)
  have key : Ordered L es s ∧ Peeked g es s := by
    refine hrun.invariant (P := fun es s => Ordered L es s ∧ Peeked g es s)
      ⟨ordered_init, peeked_init g⟩ ?_
    intro es s a s' es' h ha hstep
    have heff := step_effect hstep
    exact ⟨h.1.step hL ha.1 heff,
      h.2.step h.1.sound h.1.pushed h.1.inOrder h.1.sorted ha.2 heff⟩
  exact key.2

/-- **Order of the output lists.**  When the callbacks of each stream are serial, in
every reachable state the list of every group is strictly decreasing in timestamp and
within its depth; and what the consumers of a group that nobody pops get never goes
back to an older timestamp. -/
theorem outputOrder (hL : L.Synced) (hdepth : ∀ g < L.groudSize, 1 ≤ (L.cleanPolicy g).maxDepth)
    {as : List (Action P)} (run : Run (step L) (Serial L) .init as es s) :
    (∀ g, (s.graph.outputStreamGroudCache g).Pairwise fun f f' => Older es f' f) ∧
    (∀ g < L.groudSize,
      (s.graph.outputStreamGroudCache g).length ≤ (L.cleanPolicy g).maxDepth) ∧
    ∀ g, .getOutputStreamCache g false ∉ as → (peeks g es).Pairwise (NotOlder es) :=
  ⟨(ordered_of_run hL run).sorted.sorted, withinDepth_of_run hdepth run,
    fun _ hpop => (peeked_of_run hL run hpop).sorted⟩

/-- Two frames and a consumer that peeks after each of them. -/
def peekTwice : List (Action Unit) :=
  [.setInputStreamCache 7000 7, .setInputStreamCache 8000 8,
    .callBackInferenceResult 0 ⟨7, ()⟩, .runCallBack 0, .runCallBack 0, .runCallBack 0,
    .runCallBack 0, .getOutputStreamCache 0 true, .callBackInferenceResult 0 ⟨8, ()⟩,
    .runCallBack 1, .runCallBack 1, .runCallBack 1, .runConsumer 0,
    .getOutputStreamCache 0 true, .runConsumer 1]

theorem outputOrder_peekTwice :
    (peeks 0 ((exec (step (.baseInit ["hand_result"])) (Serial (.baseInit ["hand_result"])) .init
      peekTwice).get rfl).2).Pairwise
      (NotOlder ((exec (step (.baseInit ["hand_result"])) (Serial (.baseInit ["hand_result"]))
        .init peekTwice).get rfl).2) :=
  (outputOrder (Layout.baseInit_synced _) (by decide) (Run.of_exec_get rfl)).2.2 0 (by decide)

end XGraph
