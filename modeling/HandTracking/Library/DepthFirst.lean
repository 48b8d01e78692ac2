/-
Depth-first search for the smallest key.

The search goes from a vertex to the next ones and keeps the nodes that it has visited.  Several
vertices can have one node: the search does not go on behind a vertex whose node it has visited,
but it counts the vertex's key.

* `search` — the search, with fuel against an endless descent;
* `exists_search` — the fuel that is always enough;
* `Explored`, `search_spec` — what a search has seen of the nodes that it adds;
* `search_nil_le` — where no two vertices that can be reached have one node, the key is the
  smallest of all of them.
-/
import Mathlib.Data.List.Basic
import Mathlib.Logic.Relation
import Mathlib.Order.MinMax

namespace DepthFirst

variable {V N K : Type*} [DecidableEq N] [LinearOrder K]

/-- A directed graph whose vertices have names and keys; different vertices may share a name. -/
structure Graph (V N K : Type*) where
  node : V → N
  next : V → List V
  key : V → K

variable (g : Graph V N K)

/-- The vertices one after the other; each finds the nodes that those before it have visited. -/
def explore (visit : V → List N → Option (K × List N)) : List V → K → List N →
    Option (K × List N)
  | [], key, visited => some (key, visited)
  | w :: ws, key, visited =>
    match visit w visited with
    | none => none
    | some (key', visited') => explore visit ws (min key key') visited'

/-- The least key on a search from a vertex, and the names that were visited; `none` without fuel.
-/
def search : ℕ → V → List N → Option (K × List N)
  | 0, _, _ => none
  | fuel + 1, v, visited =>
    if g.node v ∈ visited then some (g.key v, visited)
    else explore (search fuel) (g.next v) (g.key v) (visited ++ [g.node v])

/-- There is a path from one vertex to the other. -/
def Reaches (v w : V) : Prop := Relation.ReflTransGen (fun v w => w ∈ g.next v) v w

variable {g} {fuel : ℕ} {v : V} {visited visited' : List N} {k key : K}

/-! ### What the search has seen -/

/-- A vertex of the node has been seen with all that is next to it. -/
def Explored (g : Graph V N K) (v : V) (k : K) (visited : List N) (n : N) : Prop :=
  ∃ u, Reaches g v u ∧ g.node u = n ∧ k ≤ g.key u ∧
    ∀ w ∈ g.next u, k ≤ g.key w ∧ g.node w ∈ visited

omit [DecidableEq N] in
theorem Explored.mono {n : N} (h : Explored g v key visited n) (hkey : k ≤ key)
    (hvisited : visited ⊆ visited') : Explored g v k visited' n := by
  obtain ⟨u, hreach, hnode, hle, hnext⟩ := h
  exact ⟨u, hreach, hnode, hkey.trans hle, fun w hw =>
    ⟨hkey.trans (hnext w hw).1, hvisited (hnext w hw).2⟩⟩

/-- What a search from `v` adds to what it has been given. -/
structure Found (g : Graph V N K) (v : V) (visited : List N) (k : K) (visited' : List N) :
    Prop where
  grows : visited ⊆ visited'
  node_mem : g.node v ∈ visited'
  le_key : k ≤ g.key v
  attained : ∃ u, Reaches g v u ∧ k = g.key u
  explored : ∀ n ∈ visited', n ∉ visited → Explored g v k visited' n

/-- The same, for a search from each of some vertices. -/
structure FoundAll (g : Graph V N K) (ws : List V) (key : K) (visited : List N) (k : K)
    (visited' : List N) : Prop where
  grows : visited ⊆ visited'
  le_start : k ≤ key
  seen : ∀ w ∈ ws, k ≤ g.key w ∧ g.node w ∈ visited'
  attained : k = key ∨ ∃ w ∈ ws, ∃ u, Reaches g w u ∧ k = g.key u
  explored : ∀ n ∈ visited', n ∉ visited → ∃ w ∈ ws, Explored g w k visited' n

theorem explore_spec {visit : V → List N → Option (K × List N)}
    (hvisit : ∀ w visited k visited', visit w visited = some (k, visited') →
      Found g w visited k visited')
    {ws : List V} (h : explore visit ws key visited = some (k, visited')) :
    FoundAll g ws key visited k visited' := by
  induction ws generalizing key visited with
  | nil =>
    cases h
    exact ⟨List.Subset.refl _, le_rfl, fun w hw => absurd hw List.not_mem_nil, Or.inl rfl,
      fun n hn hnew => absurd hn hnew⟩
  | cons w ws ih =>
    rw [explore] at h
    cases hw : visit w visited with
    | none =>
      rw [hw] at h
      cases h
    | some r =>
      obtain ⟨key', between⟩ := r
      rw [hw] at h
      have hfirst := hvisit w visited key' between hw
      have hrest := ih h
      have hle : k ≤ key' := hrest.le_start.trans (min_le_right _ _)
      refine ⟨fun n hn => hrest.grows (hfirst.grows hn), hrest.le_start.trans (min_le_left _ _),
        fun w' hw' => ?_, ?_, fun n hn hnew => ?_⟩
      · obtain rfl | hw' := List.mem_cons.mp hw'
        · exact ⟨hle.trans hfirst.le_key, hrest.grows hfirst.node_mem⟩
        · exact hrest.seen w' hw'
      · obtain hk | ⟨w', hw', hreach⟩ := hrest.attained
        · obtain hmin | hmin := min_choice key key'
          · exact Or.inl (hk.trans hmin)
          · obtain ⟨u, hu, hkey⟩ := hfirst.attained
            exact Or.inr ⟨w, List.mem_cons_self, u, hu, (hk.trans hmin).trans hkey⟩
        · exact Or.inr ⟨w', List.mem_cons_of_mem w hw', hreach⟩
      · by_cases hbetween : n ∈ between
        · exact ⟨w, List.mem_cons_self, (hfirst.explored n hbetween hnew).mono hle hrest.grows⟩
        · obtain ⟨w', hw', hexplored⟩ := hrest.explored n hn hbetween
          exact ⟨w', List.mem_cons_of_mem w hw', hexplored⟩

theorem search_spec (h : search g fuel v visited = some (k, visited')) :
    Found g v visited k visited' := by
  induction fuel generalizing v visited k visited' with
  | zero => cases h
  | succ fuel ih =>
    rw [search] at h
    split_ifs at h with hv
    · cases h
      exact ⟨List.Subset.refl _, hv, le_rfl, ⟨v, .refl, rfl⟩, fun n hn hnew => absurd hn hnew⟩
    · have hall := explore_spec (fun w visited k visited' hw => ih hw) h
      have hself : g.node v ∈ visited' := hall.grows (by simp)
      refine ⟨fun n hn => hall.grows (List.mem_append_left _ hn), hself, hall.le_start, ?_,
        fun n hn hnew => ?_⟩
      · obtain hk | ⟨w, hw, u, hu, hk⟩ := hall.attained
        · exact ⟨v, .refl, hk⟩
        · exact ⟨u, .head hw hu, hk⟩
      · by_cases hnode : n = g.node v
        · exact ⟨v, .refl, hnode.symm, hall.le_start, hall.seen⟩
        · obtain ⟨w, hw, u, hu, hexplored⟩ := hall.explored n hn (by simp [hnew, hnode])
          exact ⟨u, .head hw hu, hexplored⟩

/-- No key is smaller, as long as no two vertices have one node. -/
theorem search_nil_le (h : search g fuel v [] = some (k, visited'))
    (hinj : ∀ u w, Reaches g v u → Reaches g v w → g.node u = g.node w → u = w) {u : V}
    (hu : Reaches g v u) : k ≤ g.key u := by
  have hfound := search_spec h
  suffices hseen : k ≤ g.key u ∧ g.node u ∈ visited' from hseen.1
  induction hu with
  | refl => exact ⟨hfound.le_key, hfound.node_mem⟩
  | tail hreach hnext ih =>
    -- the node was visited at the very vertex, so that all that is next to it has been seen
    obtain ⟨u', hu', hnode, -, hseen⟩ := hfound.explored _ ih.2 List.not_mem_nil
    obtain rfl := hinj _ _ hu' hreach hnode
    exact hseen _ hnext

/-! ### Enough fuel -/

/-- How many nodes are still to be visited. -/
def unvisited (nodes visited : List N) : ℕ := (nodes.filter fun n => n ∉ visited).length

theorem unvisited_le (nodes : List N) (h : visited ⊆ visited') :
    unvisited nodes visited' ≤ unvisited nodes visited := by
  refine List.Sublist.length_le (List.monotone_filter_right nodes fun n hn => ?_)
  rw [decide_eq_true_eq] at hn ⊢
  exact fun hmem => hn (h hmem)

theorem unvisited_lt {nodes : List N} {n : N} (hn : n ∈ nodes) (hnew : n ∉ visited) :
    unvisited nodes (visited ++ [n]) < unvisited nodes visited := by
  have hsplit : nodes.filter (fun m => m ∉ visited ++ [n]) =
      (nodes.filter fun m => m ∉ visited).filter fun m => m ≠ n := by
    rw [List.filter_filter]
    refine List.filter_congr fun m _ => ?_
    simp [and_comm]
  rw [unvisited, hsplit, unvisited]
  refine List.length_filter_lt_length_iff_exists.mpr ⟨n, ?_, by simp⟩
  exact List.mem_filter.mpr ⟨hn, by simpa using hnew⟩

theorem exists_explore {nodes : List N} {ws : List V}
    (hsearch : ∀ w ∈ ws, ∀ visited, unvisited nodes visited < fuel →
      ∃ r, search g fuel w visited = some r)
    (hfuel : unvisited nodes visited < fuel) :
    ∃ r, explore (search g fuel) ws key visited = some r := by
  induction ws generalizing key visited with
  | nil => exact ⟨(key, visited), rfl⟩
  | cons w ws ih =>
    obtain ⟨⟨key', between⟩, hw⟩ := hsearch w List.mem_cons_self visited hfuel
    have hmore := unvisited_le nodes (search_spec hw).grows
    obtain ⟨r, hr⟩ : ∃ r, explore (search g fuel) ws (min key key') between = some r :=
      ih (fun w' hw' => hsearch w' (List.mem_cons_of_mem w hw')) (by omega)
    refine ⟨r, ?_⟩
    rw [explore, hw]
    exact hr

/-- A descent visits a new node at each vertex. -/
theorem exists_search {nodes : List N} (hnodes : ∀ u, Reaches g v u → g.node u ∈ nodes)
    (hfuel : unvisited nodes visited < fuel) : ∃ r, search g fuel v visited = some r := by
  induction fuel generalizing v visited with
  | zero => omega
  | succ fuel ih =>
    rw [search]
    split_ifs with hv
    · exact ⟨_, rfl⟩
    · have hless := unvisited_lt (hnodes v .refl) hv
      exact exists_explore (fun w hw visited hfuel =>
        ih (fun u hu => hnodes u (.head hw hu)) hfuel) (by omega)

end DepthFirst
