import Mathlib.Data.Finset.Card
import Mathlib.Data.List.GetD
import Mathlib.Data.List.Perm.Subperm
import Mathlib.Logic.Function.Iterate

/-!
# Strong components of a request graph

`isSingleAtomicGroup` hands its request graph to `graph.StrongComponents` of the
`yourbasic/graph` package, which is not in the source.  The package returns the strongly
connected components of a graph on the vertices `0, …, n - 1`; the model lists one component per
vertex that is the least of its component.  Reachability is checked along paths of at most `n`
edges, which is all a graph on `n` vertices needs.

The request graph of a payload that passes the first checks has exactly one edge out of every
vertex: it is the graph of a map `f`.  For such graphs the section `Functional` reduces
everything to the iterates of `f`:

* `reachWithin_iff` : a path of at most `k` edges is `f^[j] u = v` for some `j ≤ k`;
* `exists_iterate_lt` : every iterate is reached within `n` steps (pigeonhole);
* `length_strongComponents_eq_one_iff` : one component exactly when every vertex and `0` reach
  each other;
* `orbit_perm_of_connected`, `connected_of_cyclicOrder` : that happens exactly when the
  vertices form one cycle of `f`.
-/

namespace HermezNode

namespace Graph

/-- A path of at most `k` edges of `es` leads from `u` to `v`. -/
def reachWithin (es : List (ℕ × ℕ)) : ℕ → ℕ → ℕ → Bool
  | 0, u, v => u == v
  | k + 1, u, v => u == v || es.any fun e => e.1 == u && reachWithin es k e.2 v

/-- `u` and `v` are in one strong component of the graph on `n` vertices. -/
def strongLink (n : ℕ) (es : List (ℕ × ℕ)) (u v : ℕ) : Bool :=
  reachWithin es n u v && reachWithin es n v u

/-- `v` is the least vertex of its component. -/
def isLeast (n : ℕ) (es : List (ℕ × ℕ)) (v : ℕ) : Bool :=
  (List.range v).all fun u => !strongLink n es u v

/-- Modelled from the spec: `graph.StrongComponents` of the graph on `0, …, n - 1` with edges
`es`, one component per least vertex, listing the vertices linked to it. -/
def strongComponents (n : ℕ) (es : List (ℕ × ℕ)) : List (List ℕ) :=
  ((List.range n).filter (isLeast n es)).map fun v => (List.range n).filter (strongLink n es v)

/-! ### Iterates of a map on `0, …, n - 1` -/

section Iterate

variable {n : ℕ} {f : ℕ → ℕ}

/-- `u` and `v` reach each other along `f`. -/
def Linked (f : ℕ → ℕ) (u v : ℕ) : Prop := (∃ j, f^[j] u = v) ∧ ∃ j, f^[j] v = u

theorem Linked.refl (u : ℕ) : Linked f u u := ⟨⟨0, rfl⟩, ⟨0, rfl⟩⟩

theorem Linked.symm {u v : ℕ} (h : Linked f u v) : Linked f v u := ⟨h.2, h.1⟩

theorem Linked.trans {u v w : ℕ} (h₁ : Linked f u v) (h₂ : Linked f v w) : Linked f u w := by
  obtain ⟨⟨a, ha⟩, ⟨b, hb⟩⟩ := h₁
  obtain ⟨⟨c, hc⟩, ⟨d, hd⟩⟩ := h₂
  exact ⟨⟨c + a, by rw [Function.iterate_add_apply, ha, hc]⟩,
    ⟨b + d, by rw [Function.iterate_add_apply, hd, hb]⟩⟩

theorem iterate_lt (hf : ∀ u < n, f u < n) {u : ℕ} (hu : u < n) (j : ℕ) : f^[j] u < n := by
  induction j with
  | zero => exact hu
  | succ j ih => rw [Function.iterate_succ_apply']; exact hf _ ih

/-- Once an iterate repeats, every later one is in the stretch between the repeats. -/
theorem iterate_mem_stretch {a b u : ℕ} (hab : a < b) (h : f^[a] u = f^[b] u) (m : ℕ)
    (hm : a ≤ m) : ∃ j, a ≤ j ∧ j < b ∧ f^[m] u = f^[j] u := by
  induction m using Nat.strong_induction_on with
  | _ m ih =>
    by_cases hmb : m < b
    · exact ⟨m, hm, hmb, rfl⟩
    · have hback : f^[m] u = f^[m - (b - a)] u :=
        calc f^[m] u = f^[m - b] (f^[b] u) := by
              rw [← Function.iterate_add_apply, Nat.sub_add_cancel (by omega)]
          _ = f^[m - b] (f^[a] u) := by rw [h]
          _ = f^[m - (b - a)] u := by rw [← Function.iterate_add_apply]; congr 1; omega
      obtain ⟨j, hj⟩ := ih (m - (b - a)) (by omega) (by omega)
      exact ⟨j, hback ▸ hj⟩

/-- Among `u, f u, …, f^[n] u` two are equal. -/
theorem exists_iterate_eq (hf : ∀ u < n, f u < n) {u : ℕ} (hu : u < n) :
    ∃ a b, a < b ∧ b ≤ n ∧ f^[a] u = f^[b] u := by
  obtain ⟨x, hx, y, hy, hne, hxy⟩ :=
    Finset.exists_ne_map_eq_of_card_lt_of_maps_to
      (show (Finset.range n).card < (Finset.range (n + 1)).card by simp)
      (fun j _ => Finset.mem_range.2 (iterate_lt hf hu j))
  rw [Finset.mem_range] at hx hy
  rcases Nat.lt_or_gt_of_ne hne with h | h
  · exact ⟨x, y, h, by omega, hxy⟩
  · exact ⟨y, x, h, by omega, hxy.symm⟩

/-- Whatever `f` reaches from `u`, it reaches within `n` steps. -/
theorem exists_iterate_lt (hf : ∀ u < n, f u < n) {u v m : ℕ} (hu : u < n) (h : f^[m] u = v) :
    ∃ j < n, f^[j] u = v := by
  obtain ⟨a, b, hab, hb, he⟩ := exists_iterate_eq hf hu
  by_cases hm : m < a
  · exact ⟨m, by omega, h⟩
  · obtain ⟨j, -, hj, hmj⟩ := iterate_mem_stretch hab he m (by omega)
    exact ⟨j, by omega, hmj ▸ h⟩

/-- When every vertex is reached from `0`, the first `n` iterates of `0` are distinct. -/
theorem iterate_injOn (hc : ∀ v < n, ∃ j, f^[j] 0 = v) {x y : ℕ} (hx : x < n) (hy : y < n)
    (h : f^[x] 0 = f^[y] 0) : x = y := by
  have hn : 0 < n := by omega
  have key : ∀ {a b}, a < b → b < n → f^[a] 0 = f^[b] 0 → False := by
    intro a b hab hb he
    have hsub : Finset.range n ⊆ (Finset.range b).image (fun k => f^[k] 0) := by
      intro v hv
      obtain ⟨m, hm⟩ := hc v (Finset.mem_range.1 hv)
      rw [Finset.mem_image]
      by_cases hma : m < a
      · exact ⟨m, Finset.mem_range.2 (by omega), hm⟩
      · obtain ⟨j, -, hj, hmj⟩ := iterate_mem_stretch hab he m (by omega)
        exact ⟨j, Finset.mem_range.2 hj, hmj ▸ hm⟩
    have := (Finset.card_le_card hsub).trans Finset.card_image_le
    simp only [Finset.card_range] at this
    omega
  rcases Nat.lt_trichotomy x y with hxy | hxy | hxy
  · exact (key hxy hy h).elim
  · exact hxy
  · exact (key hxy hx h.symm).elim

end Iterate

/-! ### Graphs of maps -/

section Functional

variable {n : ℕ} {es : List (ℕ × ℕ)} {f : ℕ → ℕ}
  (hes : ∀ u w, (u, w) ∈ es ↔ u < n ∧ w = f u) (hf : ∀ u < n, f u < n)
include hes

/-- The one edge out of `u`. -/
theorem any_edge {u : ℕ} (hu : u < n) (p : ℕ → Bool) :
    es.any (fun e => e.1 == u && p e.2) = p (f u) := by
  rw [Bool.eq_iff_iff, List.any_eq_true]
  constructor
  · rintro ⟨⟨a, b⟩, he, h⟩
    simp only [Bool.and_eq_true, beq_iff_eq] at h
    obtain ⟨rfl, hp⟩ := h
    rwa [((hes a b).1 he).2] at hp
  · exact fun h => ⟨(u, f u), (hes u (f u)).2 ⟨hu, rfl⟩, by simpa using h⟩

include hf

theorem reachWithin_iff {k u v : ℕ} (hu : u < n) :
    reachWithin es k u v = true ↔ ∃ j ≤ k, f^[j] u = v := by
  induction k generalizing u with
  | zero => simp [reachWithin]
  | succ k ih =>
    rw [reachWithin, any_edge hes hu (fun w => reachWithin es k w v), Bool.or_eq_true, beq_iff_eq, ih (hf u hu)]
    constructor
    · rintro (rfl | ⟨j, hj, h⟩)
      · exact ⟨0, Nat.zero_le _, rfl⟩
      · exact ⟨j + 1, by omega, h⟩
    · rintro ⟨_ | j, hj, h⟩
      · exact .inl h
      · exact .inr ⟨j, by omega, h⟩

theorem strongLink_iff {u v : ℕ} (hu : u < n) (hv : v < n) :
    strongLink n es u v = true ↔ Linked f u v := by
  have reach : ∀ {x y}, x < n → (reachWithin es n x y = true ↔ ∃ j, f^[j] x = y) :=
    fun hx => (reachWithin_iff hes hf hx).trans
      ⟨fun ⟨j, _, h⟩ => ⟨j, h⟩, fun ⟨_, h⟩ =>
        let ⟨j, hj, h⟩ := exists_iterate_lt hf hx h; ⟨j, hj.le, h⟩⟩
  rw [strongLink, Bool.and_eq_true, reach hu, reach hv, Linked]

theorem isLeast_iff {v : ℕ} (hv : v < n) :
    isLeast n es v = true ↔ ∀ u < v, ¬ Linked f u v := by
  simp only [isLeast, List.all_eq_true, List.mem_range, Bool.not_eq_true']
  refine forall₂_congr fun u hu => ?_
  rw [← strongLink_iff hes hf (by omega) hv, Bool.not_eq_true]

/-- **One strong component** exactly when every vertex and `0` reach each other. -/
theorem length_strongComponents_eq_one_iff :
    (strongComponents n es).length = 1 ↔ 0 < n ∧ ∀ v < n, Linked f 0 v := by
  rw [strongComponents, List.length_map]
  constructor
  · intro h
    have hn : 0 < n := by
      rcases Nat.eq_zero_or_pos n with rfl | hn
      · simp at h
      · exact hn
    have h0 : 0 ∈ (List.range n).filter (isLeast n es) := by simp [hn, isLeast]
    obtain ⟨a, ha⟩ := List.length_eq_one.1 h
    refine ⟨hn, fun v hv => ?_⟩
    induction v using Nat.strong_induction_on with
    | _ v ih =>
      by_cases hv0 : v = 0
      · subst hv0; exact Linked.refl 0
      · have hvl : isLeast n es v = false := by
          by_contra hl
          have hmem : v ∈ (List.range n).filter (isLeast n es) := by simpa [hv] using hl
          rw [ha, List.mem_singleton] at h0 hmem
          exact hv0 (hmem.trans h0.symm)
        rw [← Bool.not_eq_true, isLeast_iff hes hf hv] at hvl
        push_neg at hvl
        obtain ⟨u, hu, hl⟩ := hvl
        exact (ih u hu (by omega)).trans hl
  · rintro ⟨hn, hc⟩
    obtain ⟨m, rfl⟩ : ∃ m, n = m + 1 := ⟨n - 1, by omega⟩
    rw [List.range_succ_eq_map, List.filter_cons_of_pos (by simp [isLeast]),
      List.length_cons, List.filter_map, List.length_map, add_left_eq_self, List.length_eq_zero,
      List.filter_eq_nil_iff]
    intro v hv
    rw [List.mem_range] at hv
    rw [Function.comp_apply, isLeast_iff hes hf (by omega)]
    push_neg
    exact ⟨0, Nat.succ_pos v, hc _ (by omega)⟩

end Functional

/-! ### One cycle through all vertices -/

section Cycle

variable {n : ℕ} {f : ℕ → ℕ}

/-- **A connected map is one cycle**: from `0` it visits every vertex once and returns. -/
theorem orbit_perm_of_connected (hf : ∀ u < n, f u < n) (hn : 0 < n) (hc : ∀ v < n, Linked f 0 v) :
    ((List.range n).map fun k => f^[k] 0).Perm (List.range n) ∧ f^[n] 0 = 0 := by
  have hreach : ∀ v < n, ∃ j, f^[j] 0 = v := fun v hv => (hc v hv).1
  have hperm : ((List.range n).map fun k => f^[k] 0).Perm (List.range n) := by
    refine (List.Nodup.subperm ?_ ?_).perm_of_length_le (by simp)
    · exact (List.nodup_range n).map_on fun x hx y hy h =>
        iterate_injOn hreach (List.mem_range.1 hx) (List.mem_range.1 hy) h
    · intro v hv
      obtain ⟨k, -, rfl⟩ := List.mem_map.1 hv
      exact List.mem_range.2 (iterate_lt hf hn k)
  refine ⟨hperm, ?_⟩
  obtain ⟨k, hk, hkn⟩ := List.mem_map.1
    (hperm.symm.subset (List.mem_range.2 (iterate_lt hf hn n)))
  rw [List.mem_range] at hk
  rcases Nat.eq_zero_or_pos k with rfl | hk0
  · exact hkn.symm
  · obtain ⟨m, hm⟩ := (hc _ (iterate_lt hf hn k)).2
    rw [← Function.iterate_add_apply] at hm
    obtain ⟨j, hkj, hj, hmj⟩ := iterate_mem_stretch hk hkn (m + k) (by omega)
    have := iterate_injOn hreach hj hn (hmj.symm.trans hm)
    omega

/-- **One cycle is connected**: if the vertices, in some order, each map to the next and the
last to the first, every vertex and `0` reach each other. -/
theorem connected_of_cyclicOrder {order : List ℕ} (hp : order.Perm (List.range n))
    (hcyc : ∀ k < n, f (order.getD k 0) = order.getD ((k + 1) % n) 0) :
    ∀ v < n, Linked f 0 v := by
  have hlen : order.length = n := by simpa using hp.length_eq
  have hstep : ∀ k < n, ∀ j, f^[j] (order.getD k 0) = order.getD ((k + j) % n) 0 := by
    intro k hk j
    induction j with
    | zero => rw [Nat.add_zero, Nat.mod_eq_of_lt hk]; rfl
    | succ j ih =>
      rw [Function.iterate_succ_apply', ih, hcyc _ (Nat.mod_lt _ (by omega)), Nat.mod_add_mod,
        Nat.add_assoc]
  have hidx : ∀ v < n, ∃ k < n, order.getD k 0 = v := by
    intro v hv
    obtain ⟨k, hk, hkv⟩ := List.mem_iff_getElem.1 (hp.symm.subset (List.mem_range.2 hv))
    exact ⟨k, hlen ▸ hk, by rw [List.getD_eq_getElem _ _ hk, hkv]⟩
  have hgo : ∀ a < n, ∀ b < n, ∃ j, f^[j] (order.getD a 0) = order.getD b 0 := by
    intro a ha b hb
    refine ⟨b + n - a, ?_⟩
    rw [hstep a ha, show a + (b + n - a) = b + n by omega, Nat.add_mod_right, Nat.mod_eq_of_lt hb]
  intro v hv
  obtain ⟨a, ha, ha0⟩ := hidx 0 (by omega)
  obtain ⟨b, hb, rfl⟩ := hidx v hv
  have h : Linked f (order.getD a 0) (order.getD b 0) := ⟨hgo a ha b hb, hgo b hb a ha⟩
  rwa [ha0] at h

end Cycle

end Graph

end HermezNode
