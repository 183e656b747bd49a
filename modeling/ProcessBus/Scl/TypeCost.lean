import ProcessBus.Go.Int64
import ProcessBus.Scl.Model

/-!
# Counting the nodes of a type

`ParseGooseSCL` admits a data set only if it can be displayed with 200,000 nodes, each element of
an array counted (`internal/application/sclmodel/goose.go`).  `gooseTypeCost` counts no further than
its limit: it gives up with one more than the limit as soon as the count would pass it, also in the
middle of a subtree, whose limit may then be negative.

The numbers are integers without a bound here, where the code has `int`.  With a limit that leaves
two below the largest `int` it forms none that would not fit (`typeCost_numbers`), so that the two
agree; `ParseGooseSCL` passes what is left of 200,000.
-/

namespace ProcessBus.Scl

open Go

mutual

/-- `gooseTypeCost`. -/
def gooseTypeCost : Typ → ℤ → ℤ
  | ⟨_, kind, size, children⟩, limit => gooseTypeCost.loop kind size limit children 1

/-- The loop over the children. -/
def gooseTypeCost.loop (kind : String) (size limit : ℤ) : List Typ → ℤ → ℤ
  | [], cost => cost
  | c :: rest, cost =>
      let n := gooseTypeCost c (limit - cost)
      if kind = "ARRAY" ∧ (n < 1 ∨ (limit - cost).tdiv n < size) then limit + 1
      else
        let n := if kind = "ARRAY" then n * size else n
        let cost := cost + n
        if limit < cost then limit + 1 else gooseTypeCost.loop kind size limit rest cost

end

mutual

/-- The nodes of a type, each element of an array counted. -/
def Typ.nodes : Typ → ℕ
  | ⟨_, kind, size, children⟩ =>
      1 + (if kind = "ARRAY" then size.toNat else 1) * nodesOf children

def nodesOf : List Typ → ℕ
  | [] => 0
  | c :: rest => c.nodes + nodesOf rest

end

mutual

/-- The numbers that `gooseTypeCost` computes: differences, products and sums. -/
def typeCostNumbers : Typ → ℤ → List ℤ
  | ⟨_, kind, size, children⟩, limit => typeCostNumbers.loop kind size limit children 1

def typeCostNumbers.loop (kind : String) (size limit : ℤ) : List Typ → ℤ → List ℤ
  | [], _ => []
  | c :: rest, cost =>
      let n := gooseTypeCost c (limit - cost)
      (limit - cost) :: typeCostNumbers c (limit - cost) ++
        if kind = "ARRAY" ∧ (n < 1 ∨ (limit - cost).tdiv n < size) then [limit + 1]
        else
          let product := if kind = "ARRAY" then [n * size] else []
          let n := if kind = "ARRAY" then n * size else n
          let cost := cost + n
          product ++ cost ::
            if limit < cost then [limit + 1] else typeCostNumbers.loop kind size limit rest cost

end

mutual

/-- No array has a negative size. -/
def Typ.Sized : Typ → Prop
  | ⟨_, kind, size, children⟩ => (kind = "ARRAY" → 0 ≤ size) ∧ SizedAll children

def SizedAll : List Typ → Prop
  | [] => True
  | c :: rest => c.Sized ∧ SizedAll rest

end

mutual

/-- The depth of the recursion. -/
def Typ.height : Typ → ℕ
  | ⟨_, _, _, children⟩ => heightOf children + 1

def heightOf : List Typ → ℕ
  | [] => 0
  | c :: rest => max c.height (heightOf rest)

end

theorem Typ.one_le_nodes (t : Typ) : 1 ≤ t.nodes := by
  cases t with
  | mk name kind size children =>
      rw [Typ.nodes]
      exact Nat.le_add_right 1 _

/-- How often the children of a type are counted. -/
def factor (kind : String) (size : ℤ) : ℕ := if kind = "ARRAY" then size.toNat else 1

theorem Typ.nodes_mk (name kind : String) (size : ℤ) (children : List Typ) :
    Typ.nodes ⟨name, kind, size, children⟩ = 1 + factor kind size * nodesOf children := by
  rw [Typ.nodes, factor]

/-! ## One turn of the loop -/

section Turn

variable {kind : String} {size limit cost : ℤ} {c : Typ} {rest : List Typ}

/-- What is left of the limit is compared with the product without forming it. -/
theorem quotient_lt_iff {room nodes : ℤ} (hroom : 0 ≤ room) (hnodes : 1 ≤ nodes)
    (hsize : 0 ≤ size) :
    (min nodes (room + 1) < 1 ∨ room.tdiv (min nodes (room + 1)) < size) ↔
      room < size * nodes := by
  have hpos : 0 < min nodes (room + 1) := by omega
  rw [Int.tdiv_eq_ediv_of_nonneg hroom, Int.ediv_lt_iff_lt_mul hpos]
  constructor
  · rintro (h | h)
    · exact absurd h (by omega)
    · exact h.trans_le (mul_le_mul_of_nonneg_left (min_le_left _ _) hsize)
  · intro h
    right
    rcases min_choice nodes (room + 1) with hmin | hmin
    · rw [hmin]
      exact h
    · -- the subtree alone passes what is left, so any element does
      rw [hmin]
      have hone : 1 ≤ size := by
        by_contra hzero
        have : size = 0 := by omega
        rw [this, zero_mul] at h
        omega
      calc
        room < 1 * (room + 1) := by omega
        _ ≤ size * (room + 1) := mul_le_mul_of_nonneg_right hone (by omega)

/-- A product that is formed is that of the whole count. -/
theorem product_eq {room nodes : ℤ} (hnodes : 1 ≤ nodes) (hsize : 0 ≤ size)
    (h : size * nodes ≤ room) : min nodes (room + 1) * size = size * nodes := by
  rcases hsize.eq_or_lt with hzero | hone
  · rw [← hzero, mul_zero, zero_mul]
  · have hle : nodes ≤ room := by
      calc
        nodes = 1 * nodes := (one_mul nodes).symm
        _ ≤ size * nodes := mul_le_mul_of_nonneg_right hone (by omega)
        _ ≤ room := h
    rw [min_eq_left (by omega), mul_comm]

/-- One turn of the loop, where the count is within the limit. -/
theorem loop_cons (hsize : kind = "ARRAY" → 0 ≤ size) (hcost : cost ≤ limit)
    (hc : gooseTypeCost c (limit - cost) = min (c.nodes : ℤ) (limit - cost + 1)) :
    gooseTypeCost.loop kind size limit (c :: rest) cost =
      if limit < cost + factor kind size * c.nodes then limit + 1
      else gooseTypeCost.loop kind size limit rest (cost + factor kind size * c.nodes) := by
  have hnodes : (1 : ℤ) ≤ c.nodes := by exact_mod_cast c.one_le_nodes
  have hroom : 0 ≤ limit - cost := by omega
  simp only [gooseTypeCost.loop, hc]
  by_cases hkind : kind = "ARRAY"
  · have hfactor : (factor kind size : ℤ) = size := by
      rw [factor, if_pos hkind, Int.toNat_of_nonneg (hsize hkind)]
    have hquot := quotient_lt_iff hroom hnodes (hsize hkind)
    rw [hfactor]
    by_cases hover : limit - cost < size * c.nodes
    · rw [if_pos ⟨hkind, hquot.mpr hover⟩, if_pos (by omega)]
    · have hprod := product_eq hnodes (hsize hkind) (not_lt.mp hover)
      rw [if_neg fun h ↦ hover (hquot.mp h.2), if_pos hkind, hprod]
  · have hfactor : (factor kind size : ℤ) = 1 := by
      rw [factor, if_neg hkind, Nat.cast_one]
    rw [hfactor, one_mul, if_neg fun h ↦ hkind h.1, if_neg hkind]
    by_cases hover : limit < cost + c.nodes
    · rw [if_pos (by omega), if_pos hover]
    · rw [min_eq_left (by omega)]

/-- Where the first node is beyond the limit already, the first child ends the count. -/
theorem loop_cons_of_nonpos (hsize : kind = "ARRAY" → 0 ≤ size) (hlimit : limit ≤ 0)
    (hc : gooseTypeCost c (limit - 1) = 1 ∨ gooseTypeCost c (limit - 1) = limit) :
    gooseTypeCost.loop kind size limit (c :: rest) 1 = limit + 1 := by
  simp only [gooseTypeCost.loop]
  by_cases hkind : kind = "ARRAY"
  · have hnonneg := hsize hkind
    refine if_pos ⟨hkind, ?_⟩
    rcases hc with hc | hc
    · rw [hc, Int.tdiv_one]
      omega
    · rw [hc]
      omega
  · rw [if_neg fun h ↦ hkind h.1, if_neg hkind]
    rcases hc with hc | hc
    · rw [hc, if_pos (by omega)]
    · rw [hc, if_pos (by omega)]

end Turn

/-! ## The count -/

/-- What a call returns: within the limit the number of nodes, beyond it one more than the limit.
With a negative limit a leaf still counts its one node. -/
structure CostOf (t : Typ) (limit : ℤ) : Prop where
  within : 0 ≤ limit → gooseTypeCost t limit = min (t.nodes : ℤ) (limit + 1)
  beyond : limit < 0 → gooseTypeCost t limit = 1 ∨ gooseTypeCost t limit = limit + 1

/-- A child that is called with what one node leaves of no limit. -/
theorem CostOf.nonpos {t : Typ} {limit : ℤ} (h : CostOf t (limit - 1)) (hlimit : limit ≤ 0) :
    gooseTypeCost t (limit - 1) = 1 ∨ gooseTypeCost t (limit - 1) = limit := by
  have hc := h.beyond (by omega)
  rwa [sub_add_cancel] at hc

mutual

theorem cost_eq : ∀ (t : Typ) (limit : ℤ), t.Sized → CostOf t limit
  | ⟨name, kind, size, children⟩, limit, ht => by
    rw [Typ.Sized] at ht
    obtain ⟨hsize, hchildren⟩ := ht
    constructor
    · intro hlimit
      have hnonneg : (0 : ℤ) ≤ factor kind size * nodesOf children := by positivity
      rw [gooseTypeCost, Typ.nodes_mk]
      rcases hlimit.eq_or_lt with hzero | hone
      · subst hzero
        cases children with
        | nil =>
            rw [gooseTypeCost.loop, nodesOf]
            rfl
        | cons c rest =>
            rw [SizedAll] at hchildren
            rw [loop_cons_of_nonpos hsize le_rfl ((cost_eq c _ hchildren.1).nonpos le_rfl),
              Nat.cast_add, Nat.cast_mul, Nat.cast_one]
            omega
      · rw [loop_eq children 1 limit hsize hchildren (by omega)]
        push_cast
        split
        · omega
        · omega
    · intro hlimit
      rw [gooseTypeCost]
      cases children with
      | nil =>
          left
          rw [gooseTypeCost.loop]
      | cons c rest =>
          right
          rw [SizedAll] at hchildren
          exact loop_cons_of_nonpos hsize hlimit.le ((cost_eq c _ hchildren.1).nonpos hlimit.le)

theorem loop_eq {kind : String} {size : ℤ} : ∀ (children : List Typ) (cost limit : ℤ),
    (kind = "ARRAY" → 0 ≤ size) → SizedAll children → cost ≤ limit →
    gooseTypeCost.loop kind size limit children cost =
      if limit < cost + factor kind size * nodesOf children then limit + 1
      else cost + factor kind size * nodesOf children
  | [], cost, limit, _, _, hcost => by
    rw [gooseTypeCost.loop, nodesOf, Nat.cast_zero, mul_zero, add_zero, if_neg (by omega)]
  | c :: rest, cost, limit, hsize, hchildren, hcost => by
    rw [SizedAll] at hchildren
    obtain ⟨hc, hrest⟩ := hchildren
    have hnonneg : (0 : ℤ) ≤ factor kind size * nodesOf rest := by positivity
    rw [loop_cons hsize hcost ((cost_eq c _ hc).within (by omega)), nodesOf, Nat.cast_add,
      mul_add, ← add_assoc]
    split
    · rw [if_pos (by omega)]
    · rename_i hwithin
      exact loop_eq rest _ limit hsize hrest (not_lt.mp hwithin)

end

/-! ## The numbers on the way -/

/-- The numbers stay between what a depth of calls takes from the limit and two more than the
limit. -/
def Between (limit : ℤ) (height : ℕ) (x : ℤ) : Prop :=
  min limit 0 - height ≤ x ∧ x ≤ max limit 0 + 2

theorem Between.mono {limit limit' : ℤ} {height height' : ℕ} {x : ℤ} (h : Between limit height x)
    (hlow : min limit' 0 - height' ≤ min limit 0 - height) (hhigh : limit ≤ max limit' 0) :
    Between limit' height' x := by
  obtain ⟨hx, hx'⟩ := h
  constructor
  · omega
  · omega

/-- What is known of the `n` that a turn of the loop adds up: the product and the sum are between
the bounds, and the count goes on from a positive number. -/
structure Counted (kind : String) (size limit cost n : ℤ) : Prop where
  product : kind = "ARRAY" → Between limit 1 (n * size)
  sum : Between limit 1 (cost + if kind = "ARRAY" then n * size else n)
  positive : (cost + if kind = "ARRAY" then n * size else n) ≤ limit →
    1 ≤ cost + if kind = "ARRAY" then n * size else n

section Counted

variable {kind : String} {size limit cost n : ℤ}

/-- The product is formed only where it is within what is left of the limit. -/
theorem counted_of_le {nodes : ℕ} (hsize : kind = "ARRAY" → 0 ≤ size) (hone : 1 ≤ cost)
    (hnodes : 1 ≤ nodes) (hcost : cost ≤ limit)
    (hn : n = min (nodes : ℤ) (limit - cost + 1))
    (hsmall : ¬(kind = "ARRAY" ∧ (n < 1 ∨ (limit - cost).tdiv n < size))) :
    Counted kind size limit cost n := by
  have hpos : 1 ≤ n := by omega
  by_cases hkind : kind = "ARRAY"
  · have hnonneg := hsize hkind
    have hle : size * nodes ≤ limit - cost := by
      rw [hn, quotient_lt_iff (by omega) (by omega) hnonneg] at hsmall
      exact not_lt.mp fun h ↦ hsmall ⟨hkind, h⟩
    have hprod : n * size = size * nodes := by
      rw [hn]
      exact product_eq (by omega) hnonneg hle
    have hproduct : 0 ≤ size * nodes := by positivity
    constructor
    · intro _
      rw [hprod]
      exact ⟨by omega, by omega⟩
    · rw [if_pos hkind, hprod]
      exact ⟨by omega, by omega⟩
    · rw [if_pos hkind, hprod]
      omega
  · constructor
    · exact fun h ↦ absurd h hkind
    · rw [if_neg hkind]
      exact ⟨by omega, by omega⟩
    · rw [if_neg hkind]
      omega

/-- Where the limit is not positive, an array ends the count before a product is formed. -/
theorem counted_of_nonpos (hsize : kind = "ARRAY" → 0 ≤ size) (hlimit : limit ≤ 0)
    (hn : n = 1 ∨ n = limit)
    (hsmall : ¬(kind = "ARRAY" ∧ (n < 1 ∨ (limit - 1).tdiv n < size))) :
    Counted kind size limit 1 n := by
  have hkind : kind ≠ "ARRAY" := by
    intro hkind
    have hnonneg := hsize hkind
    refine hsmall ⟨hkind, ?_⟩
    rcases hn with rfl | rfl
    · rw [Int.tdiv_one]
      omega
    · omega
  constructor
  · exact fun h ↦ absurd h hkind
  · rw [if_neg hkind]
    rcases hn with rfl | rfl
    · exact ⟨by omega, by omega⟩
    · exact ⟨by omega, by omega⟩
  · rw [if_neg hkind]
    omega

end Counted

/-- A number of the loop is formed in its first turn, in the call for the child or in the rest of
the loop. -/
theorem turn_numbers {kind : String} {size limit cost : ℤ} {c : Typ} {rest : List Typ} {x : ℤ}
    (hsize : kind = "ARRAY" → 0 ≤ size) (hone : 1 ≤ cost) (hcost : limit < cost → cost = 1)
    (hcostOf : CostOf c (limit - cost))
    (hx : x ∈ typeCostNumbers.loop kind size limit (c :: rest) cost) :
    Between limit 1 x ∨ x ∈ typeCostNumbers c (limit - cost) ∨
      ∃ cost', 1 ≤ cost' ∧ cost' ≤ limit ∧ x ∈ typeCostNumbers.loop kind size limit rest cost' := by
  have hmark : Between limit 1 (limit + 1) := ⟨by omega, by omega⟩
  rw [typeCostNumbers.loop] at hx
  dsimp only at hx
  rw [List.cons_append, List.mem_cons, List.mem_append] at hx
  rcases hx with rfl | hx | hx
  · left
    constructor
    · omega
    · omega
  · exact .inr (.inl hx)
  split at hx
  · rw [List.mem_singleton.mp hx]
    exact .inl hmark
  rename_i hsmall
  rw [List.mem_append, List.mem_cons] at hx
  have hcounted : Counted kind size limit cost (gooseTypeCost c (limit - cost)) := by
    rcases lt_or_ge limit cost with hover | hwithin
    · obtain rfl := hcost hover
      exact counted_of_nonpos hsize (by omega) (hcostOf.nonpos (by omega)) hsmall
    · have hn := hcostOf.within (by omega)
      exact counted_of_le hsize hone c.one_le_nodes hwithin hn hsmall
  obtain ⟨hproduct, hsum, hpositive⟩ := hcounted
  generalize (cost + if kind = "ARRAY" then gooseTypeCost c (limit - cost) * size
    else gooseTypeCost c (limit - cost)) = sum at hsum hpositive hx
  rcases hx with hx | rfl | hx
  · split at hx
    · rename_i hkind
      rw [List.mem_singleton.mp hx]
      exact .inl (hproduct hkind)
    · cases hx
  · exact .inl hsum
  · split at hx
    · rw [List.mem_singleton.mp hx]
      exact .inl hmark
    · rename_i hle
      exact .inr (.inr ⟨sum, hpositive (not_lt.mp hle), not_lt.mp hle, hx⟩)

mutual

theorem typeCost_numbers : ∀ (t : Typ) (limit : ℤ), t.Sized →
    ∀ x ∈ typeCostNumbers t limit, Between limit t.height x
  | ⟨name, kind, size, children⟩, limit, ht => by
    rw [Typ.Sized] at ht
    rw [typeCostNumbers, Typ.height]
    exact typeCost_loop_numbers children 1 limit ht.1 ht.2 le_rfl fun _ ↦ rfl

theorem typeCost_loop_numbers {kind : String} {size : ℤ} :
    ∀ (children : List Typ) (cost limit : ℤ), (kind = "ARRAY" → 0 ≤ size) → SizedAll children →
      1 ≤ cost → (limit < cost → cost = 1) →
      ∀ x ∈ typeCostNumbers.loop kind size limit children cost,
        Between limit (heightOf children + 1) x
  | [], cost, limit, _, _, _, _ => by
    intro x hx
    rw [typeCostNumbers.loop] at hx
    cases hx
  | c :: rest, cost, limit, hsize, hchildren, hone, hcost => by
    rw [SizedAll] at hchildren
    obtain ⟨hc, hrest⟩ := hchildren
    intro x hx
    rw [heightOf]
    rcases turn_numbers hsize hone hcost (cost_eq c _ hc) hx with h | h | ⟨cost', hone', hle, h⟩
    · exact h.mono (by omega) (le_max_left _ _)
    · refine (typeCost_numbers c _ hc x h).mono ?_ ?_
      · rcases lt_or_ge limit cost with hover | hwithin
        · have := hcost hover
          omega
        · omega
      · omega
    · refine (typeCost_loop_numbers rest cost' limit hsize hrest hone' ?_ x h).mono ?_
        (le_max_left _ _)
      · intro hover
        omega
      · omega

end

/-! ## Main result -/

/-- **The bounded count is exact up to its limit**: whatever the nesting of arrays, the count is
within the limit exactly if the expanded tree is, it is then the number of its nodes, and no
difference, product or sum on the way exceeds the limit by more than two or falls below zero by more
than the depth of the type.  If these two bounds fit an `int64`, all numbers do. -/
theorem gooseTypeCost_exact (t : Typ) (limit : ℤ) (ht : t.Sized) (hlimit : 0 ≤ limit) :
    (gooseTypeCost t limit ≤ limit ↔ (t.nodes : ℤ) ≤ limit) ∧
      (gooseTypeCost t limit ≤ limit → gooseTypeCost t limit = t.nodes) ∧
      (∀ x ∈ typeCostNumbers t limit, -(t.height : ℤ) ≤ x ∧ x ≤ limit + 2) ∧
      (limit + 2 < 2 ^ 63 → t.height ≤ 2 ^ 63 → ∀ x ∈ typeCostNumbers t limit, Fits64 x) := by
  have hcost := (cost_eq t limit ht).within hlimit
  have hnumbers : ∀ x ∈ typeCostNumbers t limit, -(t.height : ℤ) ≤ x ∧ x ≤ limit + 2 := by
    intro x hx
    obtain ⟨hlow, hhigh⟩ := typeCost_numbers t limit ht x hx
    rw [min_eq_right hlimit] at hlow
    rw [max_eq_left hlimit] at hhigh
    exact ⟨by omega, hhigh⟩
  refine ⟨?_, ?_, hnumbers, fun hmax hheight x hx ↦ ?_⟩
  · rw [hcost]
    omega
  · rw [hcost]
    omega
  · obtain ⟨hlow, hhigh⟩ := hnumbers x hx
    constructor
    · omega
    · omega

/-- An array of three structures of two values. -/
def sampleArray : Typ :=
  ⟨"values", "ARRAY", 3, [⟨"value", "STRUCT", 0, [⟨"i", "INT32", 0, []⟩, ⟨"f", "FLOAT32", 0, []⟩]⟩]⟩

theorem sampleArray_sized : sampleArray.Sized := by
  simp [sampleArray, Typ.Sized, SizedAll]

/-- With room for ten nodes all of them are counted. -/
theorem gooseTypeCost_exact_sampleArray :
    gooseTypeCost sampleArray 10 = 10 ∧ sampleArray.nodes = 10 ∧
      ∀ x ∈ typeCostNumbers sampleArray 10, Fits64 x := by
  have hcost : gooseTypeCost sampleArray 10 ≤ 10 := by
    simp [sampleArray, gooseTypeCost, gooseTypeCost.loop]
  obtain ⟨-, heq, -, hfits⟩ := gooseTypeCost_exact sampleArray 10 sampleArray_sized (by omega)
  have hnodes : sampleArray.nodes = 10 := by
    simp [sampleArray, Typ.nodes, nodesOf]
  have hheight : sampleArray.height = 3 := by
    simp [sampleArray, Typ.height, heightOf]
  refine ⟨?_, hnodes, hfits (by omega) (by omega)⟩
  rw [heq hcost, hnodes]
  rfl

/-! ## The budget of a data set -/

/-- The loop of `ParseGooseSCL` over the entries of a data set. -/
def displayBudget : List Typ → ℤ → Except String ℤ
  | [], remaining => .ok remaining
  | t :: rest, remaining =>
      let cost := gooseTypeCost t remaining
      if remaining < cost then .error "DataSet exceeds the 200,000 display-node limit"
      else displayBudget rest (remaining - cost)

/-- **A data set is admitted exactly if all its nodes fit in the budget**, and what remains is the
rest of it. -/
theorem displayBudget_eq : ∀ (entries : List Typ) (remaining : ℤ), SizedAll entries →
    0 ≤ remaining →
    displayBudget entries remaining =
      if remaining < nodesOf entries then
        .error "DataSet exceeds the 200,000 display-node limit"
      else .ok (remaining - nodesOf entries)
  | [], remaining, _, hremaining => by
    rw [displayBudget, nodesOf, Nat.cast_zero, if_neg (by omega), sub_zero]
  | t :: rest, remaining, hentries, hremaining => by
    rw [SizedAll] at hentries
    obtain ⟨ht, hrest⟩ := hentries
    have hcost := (cost_eq t remaining ht).within hremaining
    simp only [displayBudget, nodesOf, Nat.cast_add]
    rcases lt_or_ge remaining t.nodes with hover | hwithin
    · rw [if_pos (by omega), if_pos (by omega)]
    · have hnodes : gooseTypeCost t remaining = t.nodes := by omega
      rw [hnodes, if_neg (by omega), displayBudget_eq rest _ hrest (by omega)]
      simp only [sub_lt_iff_lt_add', sub_sub]

end ProcessBus.Scl
