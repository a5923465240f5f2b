import CxkFramework.Rotation
import Mathlib.Tactic

/-!
# The choice of a load balancer

`RoundRobinLoadBalance`, `WeightLoadBalance` and `FairLoadBalance`. The last two look for the
place of a random number among the sums of the weights and return how far the beginning is from
there, so the place with its sign turned round, where `-1` stands for none. As a `size_t` it is
close to `2^64`, and the search for a valid item starts there. An item is told by what its
`getWeight` and `isValid` return.
-/

namespace CxkFramework

open Rotation

structure LoadBalanceItem where
  weight : Int32
  valid : Bool
  deriving DecidableEq, Repr

/-! ## `std::upper_bound` -/

/-- Among the `len` elements from `first` on; a round takes one of them away at least. -/
def upperBoundLoop (l : List Int32) (v : Int32) : Nat → Nat → Nat → Nat
  | 0, first, _ => first
  | rounds + 1, first, len =>
    if len = 0 then first
    else
      let half := len / 2
      if v < l.getD (first + half) 0 then upperBoundLoop l v rounds first half
      else upperBoundLoop l v rounds (first + half + 1) (len - half - 1)

def upperBound (l : List Int32) (v : Int32) : Nat := upperBoundLoop l v l.length 0 l.length

/-! ## The sums of the weights -/

/-- The loop of `initWeight`. -/
def weightSums (total : Int32) : List LoadBalanceItem → List Int32
  | [] => []
  | h :: hs => (total + h.weight) :: weightSums (total + h.weight) hs

/-- `*m_weights.rbegin()` after `initWeight`. -/
def totalWeight (weights : List Int32) : Int32 := weights.getLastD 0

/-- `rand() % total`. -/
def remainder (r : Nat) (total : Int32) : Int32 := Int32.ofInt ((r : Int).tmod total.toInt)

/-- The common body of `getIdx`; `none` is a division by zero. -/
def weightIdx (weights : List Int32) (r : Nat) : Option Int32 :=
  if weights.isEmpty then some (-1)
  else
    let total := totalWeight weights
    if total = 0 then none
    else
      let it := upperBound weights (remainder r total)
      some (Int32.ofInt (-(it : Int)))

/-! ## The balancers -/

/-- How many pointers to items a vector can hold. -/
def MAX_ITEMS : Nat := 2 ^ 59 - 1

/-- `m_items`. -/
structure LoadBalance where
  items : List LoadBalanceItem
  length_le : items.length ≤ MAX_ITEMS

namespace LoadBalance

/-- The search for a valid item from a place on, the sum a `size_t`. -/
def scan (lb : LoadBalance) (start : Nat) : Option LoadBalanceItem :=
  search (2 ^ 64) lb.items.length start fun p => lb.items[p]?.filter LoadBalanceItem.valid

/-- The common body of `get` with weights. -/
def getWeighted (lb : LoadBalance) (idx : Int32) : Option LoadBalanceItem :=
  if idx = -1 then none else lb.scan (idx.toInt % 2 ^ 64).toNat

end LoadBalance

def RoundRobinLoadBalance.get (lb : LoadBalance) (r : Nat) : Option LoadBalanceItem :=
  if lb.items.isEmpty then none else lb.scan (r % lb.items.length % 2 ^ 32)

structure WeightLoadBalance extends LoadBalance where
  weights : List Int32

namespace WeightLoadBalance

def initWeight (lb : WeightLoadBalance) : Int32 × WeightLoadBalance :=
  let weights := weightSums 0 lb.items
  (totalWeight weights, { lb with weights := weights })

def getIdx (lb : WeightLoadBalance) (r : Nat) : Option Int32 := weightIdx lb.weights r

def get (lb : WeightLoadBalance) (r : Nat) : Option (Option LoadBalanceItem) :=
  (lb.getIdx r).map lb.getWeighted

end WeightLoadBalance

structure FairLoadBalance extends LoadBalance where
  weights : List Int32

namespace FairLoadBalance

def initWeight (lb : FairLoadBalance) : Int32 × FairLoadBalance :=
  let weights := weightSums 0 lb.items
  (totalWeight weights, { lb with weights := weights })

def getIdx (lb : FairLoadBalance) (r : Nat) : Option Int32 := weightIdx lb.weights r

def get (lb : FairLoadBalance) (r : Nat) : Option (Option LoadBalanceItem) :=
  (lb.getIdx r).map lb.getWeighted

end FairLoadBalance

/-! ## What is chosen -/

/-- The sum of the first `j` weights. -/
def prefixSum (items : List LoadBalanceItem) (j : Nat) : Int :=
  ((items.take j).map (fun h => h.weight.toInt)).sum

/-- The sum of all weights. -/
def weightSum (items : List LoadBalanceItem) : Int := prefixSum items items.length

/-- The item a random number falls on. -/
def FallsOn (items : List LoadBalanceItem) (r j : Nat) : Prop :=
  j < items.length ∧ prefixSum items j ≤ r % weightSum items ∧ r % weightSum items < prefixSum items (j + 1)

/-- `getIdx` returns that item, and does not divide by zero. -/
def ChoosesRight (items : List LoadBalanceItem) (r : Nat) (idx : Option Int32) : Prop :=
  (0 < weightSum items → ∃ i j, idx = some i ∧ i.toInt = (j : Nat) ∧ FallsOn items r j) ∧
    (weightSum items = 0 → idx ≠ none)

instance (items : List LoadBalanceItem) (r j : Nat) : Decidable (FallsOn items r j) :=
  inferInstanceAs (Decidable (_ ∧ _ ∧ _))

/-- No weight is negative and their sum fits in an `int32_t`. -/
structure Weighs (items : List LoadBalanceItem) : Prop where
  nonneg : ∀ h ∈ items, 0 ≤ h.weight.toInt
  fits : weightSum items < 2 ^ 31

section UpperBound

variable {l : List Int32} {v : Int32}

/-- Up to a place the elements are not above the value, and from there on they are. -/
structure Splits (l : List Int32) (v : Int32) (j : Nat) : Prop where
  le_length : j ≤ l.length
  below : ∀ i x, l[i]? = some x → i < j → x ≤ v
  above : ∀ i x, l[i]? = some x → j ≤ i → v < x

/-- In a sorted list the search keeps the elements before it below and those behind it above. -/
theorem upperBoundLoop_splits (hsorted : l.Pairwise (· ≤ ·)) {rounds first len : Nat}
    (hrounds : len ≤ rounds) (hlen : first + len ≤ l.length)
    (hbelow : ∀ i x, l[i]? = some x → i < first → x ≤ v)
    (habove : ∀ i x, l[i]? = some x → first + len ≤ i → v < x) :
    Splits l v (upperBoundLoop l v rounds first len) := by
  induction rounds generalizing first len with
  | zero =>
    obtain rfl : len = 0 := Nat.le_zero.mp hrounds
    exact ⟨hlen, hbelow, habove⟩
  | succ rounds ih =>
    rw [upperBoundLoop]
    split
    · next hzero =>
      subst hzero
      exact ⟨hlen, hbelow, habove⟩
    · next hpos =>
      have hmid : first + len / 2 < l.length := by omega
      have hget : l.getD (first + len / 2) 0 = l[first + len / 2] := by
        rw [List.getD_eq_getElem?_getD, List.getElem?_eq_getElem hmid, Option.getD_some]
      have hle := List.pairwise_iff_getElem.mp hsorted
      dsimp only
      rw [hget]
      split
      · next hlt =>
        apply ih (by omega) (by omega) hbelow
        intro i x hi hge
        obtain ⟨hlength, rfl⟩ := List.getElem?_eq_some_iff.mp hi
        rcases Nat.lt_or_eq_of_le hge with hgt | rfl
        · exact Int32.lt_of_lt_of_le hlt (hle _ _ hmid hlength hgt)
        · exact hlt
      · next hge =>
        refine ih (by omega) (by omega) ?_ ?_
        · intro i x hi hlt
          obtain ⟨hlength, rfl⟩ := List.getElem?_eq_some_iff.mp hi
          have hnot : l[first + len / 2] ≤ v := Int32.not_lt.mp hge
          rcases Nat.lt_or_eq_of_le (Nat.lt_succ_iff.mp hlt) with hbefore | rfl
          · exact Int32.le_trans (hle _ _ hlength hmid hbefore) hnot
          · exact hnot
        · intro i x hi hge'
          exact habove i x hi (by omega)

theorem upperBound_splits (hsorted : l.Pairwise (· ≤ ·)) (v : Int32) : Splits l v (upperBound l v) := by
  apply upperBoundLoop_splits hsorted le_rfl (by omega)
  · intro i x _ hlt
    omega
  · intro i x hi hge
    obtain ⟨hlt, -⟩ := List.getElem?_eq_some_iff.mp hi
    omega

end UpperBound

section Sums

variable {items : List LoadBalanceItem} {a : LoadBalanceItem}

@[simp] theorem prefixSum_zero (items : List LoadBalanceItem) : prefixSum items 0 = 0 := rfl

@[simp] theorem prefixSum_cons (a : LoadBalanceItem) (items : List LoadBalanceItem) (j : Nat) :
    prefixSum (a :: items) (j + 1) = a.weight.toInt + prefixSum items j := by
  simp [prefixSum]

theorem weightSum_cons (a : LoadBalanceItem) (items : List LoadBalanceItem) :
    weightSum (a :: items) = a.weight.toInt + weightSum items := prefixSum_cons a items _

theorem prefixSum_le_succ (hnonneg : ∀ h ∈ items, 0 ≤ h.weight.toInt) (j : Nat) :
    prefixSum items j ≤ prefixSum items (j + 1) := by
  induction items generalizing j with
  | nil => simp [prefixSum]
  | cons a items ih =>
    have ha := hnonneg a List.mem_cons_self
    cases j with
    | zero => simpa using ha
    | succ j =>
      have hle := ih (fun h hh => hnonneg h (List.mem_cons_of_mem _ hh)) j
      simpa using hle

theorem prefixSum_mono (hnonneg : ∀ h ∈ items, 0 ≤ h.weight.toInt) : Monotone (prefixSum items) :=
  monotone_nat_of_le_succ (prefixSum_le_succ hnonneg)

@[simp] theorem length_weightSums (total : Int32) (items : List LoadBalanceItem) :
    (weightSums total items).length = items.length := by
  induction items generalizing total with
  | nil => rfl
  | cons a items ih => rw [weightSums, List.length_cons, ih, List.length_cons]

theorem toInt_add_of_fits {x y : Int32} (hx : 0 ≤ x.toInt) (hy : 0 ≤ y.toInt)
    (hfits : x.toInt + y.toInt < 2 ^ 31) : (x + y).toInt = x.toInt + y.toInt := by
  rw [Int32.toInt_add]
  apply Int.bmod_eq_of_le
  · change -(2 ^ 32 / 2 : Int) ≤ x.toInt + y.toInt
    omega
  · change x.toInt + y.toInt < (2 ^ 32 + 1) / 2
    omega

/-- The sums are those of the integers. -/
theorem toInt_weightSums {total x : Int32} {i : Nat} (hnonneg : ∀ h ∈ items, 0 ≤ h.weight.toInt)
    (htotal : 0 ≤ total.toInt) (hfits : total.toInt + weightSum items < 2 ^ 31)
    (hx : (weightSums total items)[i]? = some x) :
    x.toInt = total.toInt + prefixSum items (i + 1) := by
  induction items generalizing total i with
  | nil => simp [weightSums] at hx
  | cons a items ih =>
    have ha := hnonneg a List.mem_cons_self
    have hrest : ∀ h ∈ items, 0 ≤ h.weight.toInt := fun h hh => hnonneg h (List.mem_cons_of_mem _ hh)
    have hle : 0 ≤ weightSum items := prefixSum_mono hrest (Nat.zero_le _)
    rw [weightSum_cons] at hfits
    have hadd := toInt_add_of_fits htotal ha (by omega)
    rw [weightSums] at hx
    cases i with
    | zero =>
      cases hx
      simpa using hadd
    | succ i =>
      rw [List.getElem?_cons_succ] at hx
      rw [ih hrest (by omega) (by omega) hx, hadd, prefixSum_cons]
      omega

theorem Weighs.sum (h : Weighs items) {i : Nat} {x : Int32} (hx : (weightSums 0 items)[i]? = some x) :
    x.toInt = prefixSum items (i + 1) := by
  have hfits : (0 : Int32).toInt + weightSum items < 2 ^ 31 := by
    rw [Int32.toInt_zero, zero_add]
    exact h.fits
  rw [toInt_weightSums h.nonneg le_rfl hfits hx, Int32.toInt_zero, zero_add]

theorem Weighs.sorted (h : Weighs items) : (weightSums 0 items).Pairwise (· ≤ ·) := by
  rw [List.pairwise_iff_getElem]
  intro i j hi hj hlt
  rw [Int32.le_iff_toInt_le, h.sum (List.getElem?_eq_getElem hi), h.sum (List.getElem?_eq_getElem hj)]
  exact prefixSum_mono h.nonneg (by omega)

theorem Weighs.total (h : Weighs items) :
    (totalWeight (weightSums 0 items)).toInt = weightSum items := by
  cases items with
  | nil => rfl
  | cons a items =>
    have hlt : items.length < (weightSums 0 (a :: items)).length := by simp
    have hlast := List.getElem?_eq_getElem hlt
    rw [totalWeight, List.getLastD_eq_getLast?, List.getLast?_eq_getElem?, length_weightSums,
      List.length_cons, Nat.add_sub_cancel, hlast, Option.getD_some, h.sum hlast]
    rfl

theorem Weighs.weightSum_nonneg (h : Weighs items) : 0 ≤ weightSum items :=
  prefixSum_mono h.nonneg (Nat.zero_le _)

theorem Weighs.remainder (h : Weighs items) (hpos : 0 < weightSum items) (r : Nat) :
    (remainder r (totalWeight (weightSums 0 items))).toInt = r % weightSum items := by
  have hfits := h.fits
  have hlow := Int.emod_nonneg (r : Int) hpos.ne'
  have hhigh := Int.emod_lt_of_pos (r : Int) hpos
  rw [CxkFramework.remainder, h.total, Int.tmod_eq_emod_of_nonneg (Int.natCast_nonneg r)]
  exact Int32.toInt_ofInt_of_le (by omega) (by omega)

/-- The place that `upper_bound` finds. -/
theorem Weighs.fallsOn (h : Weighs items) (hpos : 0 < weightSum items) (r : Nat) :
    FallsOn items r (upperBound (weightSums 0 items)
      (CxkFramework.remainder r (totalWeight (weightSums 0 items)))) := by
  have hv := h.remainder hpos r
  obtain ⟨hle, hbelow, habove⟩ := upperBound_splits h.sorted
    (CxkFramework.remainder r (totalWeight (weightSums 0 items)))
  have hlow := Int.emod_nonneg (r : Int) hpos.ne'
  have hhigh := Int.emod_lt_of_pos (r : Int) hpos
  generalize upperBound (weightSums 0 items) _ = j at *
  rw [length_weightSums] at hle
  have hget : ∀ i, i < items.length → ∃ x, (weightSums 0 items)[i]? = some x ∧
      x.toInt = prefixSum items (i + 1) := by
    intro i hi
    have hsome := List.getElem?_eq_getElem (show i < (weightSums 0 items).length by simpa using hi)
    exact ⟨_, hsome, h.sum hsome⟩
  have hprefix : prefixSum items j ≤ r % weightSum items := by
    cases j with
    | zero => exact hlow
    | succ i =>
      obtain ⟨x, hx, hsum⟩ := hget i hle
      have hnot := Int32.le_iff_toInt_le.mp (hbelow i x hx (Nat.lt_succ_self i))
      rwa [hv, hsum] at hnot
  -- the remainder is below the sum of all weights
  have hlt : j < items.length := by
    apply lt_of_le_of_ne hle
    rintro rfl
    exact absurd hprefix (not_le.mpr hhigh)
  obtain ⟨x, hx, hsum⟩ := hget j hlt
  have hnext := Int32.lt_iff_toInt_lt.mp (habove j x hx le_rfl)
  rw [hv, hsum] at hnext
  exact ⟨hlt, hprefix, hnext⟩

theorem FallsOn.unique {r j k : Nat} (hnonneg : ∀ h ∈ items, 0 ≤ h.weight.toInt)
    (hj : FallsOn items r j) (hk : FallsOn items r k) : j = k := by
  obtain ⟨-, hj, hj'⟩ := hj
  obtain ⟨-, hk, hk'⟩ := hk
  rcases Nat.lt_trichotomy j k with hlt | heq | hgt
  · have hmono := prefixSum_mono hnonneg hlt
    exact absurd (hj'.trans_le hmono) (not_lt.mpr hk)
  · exact heq
  · have hmono := prefixSum_mono hnonneg hgt
    exact absurd (hk'.trans_le hmono) (not_lt.mpr hj)

end Sums

/-! ## Proportional choice -/

/-- The sign of the distance is lost only on zero. -/
theorem toInt_distance_iff (j : Nat) : (Int32.ofInt (-(j : Int))).toInt = j ↔ j = 0 := by
  rw [Int32.toInt_ofInt, show Int32.size = 2 ^ 32 from rfl, Int.bmod_def]
  constructor
  · intro h
    split at h <;> omega
  · rintro rfl
    rfl

/-- The random number falls on the first item, or there are no items. -/
def FallsOnFirst (items : List LoadBalanceItem) (r : Nat) : Prop :=
  items = [] ∨ 0 < weightSum items ∧ r % weightSum items < prefixSum items 1

instance (items : List LoadBalanceItem) (r : Nat) : Decidable (FallsOnFirst items r) :=
  inferInstanceAs (Decidable (_ ∨ _))

theorem weightIdx_right_iff {items : List LoadBalanceItem} (h : Weighs items) (r : Nat) :
    ChoosesRight items r (weightIdx (weightSums 0 items) r) ↔ FallsOnFirst items r := by
  cases items with
  | nil => exact iff_of_true ⟨fun hpos => absurd hpos (by decide), fun _ => nofun⟩ (.inl rfl)
  | cons a items =>
    have htotal := h.total
    rw [weightIdx, if_neg (by simp [weightSums])]
    dsimp only
    rcases h.weightSum_nonneg.eq_or_lt with hzero | hpos
    · have hnone : totalWeight (weightSums 0 (a :: items)) = 0 := by
        apply Int32.toInt_inj.mp
        rw [htotal, ← hzero]
        rfl
      rw [if_pos hnone]
      refine iff_of_false (fun hright => hright.2 hzero.symm rfl) ?_
      rintro (hnil | ⟨hpos, -⟩)
      · cases hnil
      · omega
    · have hsome : totalWeight (weightSums 0 (a :: items)) ≠ 0 := by
        intro hnone
        rw [hnone] at htotal
        exact hpos.ne htotal
      rw [if_neg hsome]
      have hfalls := h.fallsOn hpos r
      generalize upperBound (weightSums 0 (a :: items)) _ = it at *
      constructor
      · intro hright
        obtain ⟨i, j, hi, hj, hfalls'⟩ := hright.1 hpos
        cases hi
        rw [← hfalls.unique h.nonneg hfalls', toInt_distance_iff] at hj
        subst hj
        exact .inr ⟨hpos, hfalls.2.2⟩
      · rintro (hnil | ⟨-, hfirst⟩)
        · cases hnil
        · have hzero : FallsOn (a :: items) r 0 :=
            ⟨Nat.zero_lt_succ _, Int.emod_nonneg _ hpos.ne', hfirst⟩
          obtain rfl := hfalls.unique h.nonneg hzero
          exact ⟨fun _ => ⟨_, 0, rfl, rfl, hzero⟩, fun hno => absurd hno hpos.ne'⟩

/-- After `initWeight` the index is right exactly when the random number falls on the first item. -/
theorem getIdx_right_iff (w : WeightLoadBalance) (f : FairLoadBalance) (hw : Weighs w.items)
    (hf : Weighs f.items) (r : Nat) :
    (ChoosesRight w.items r (w.initWeight.2.getIdx r) ↔ FallsOnFirst w.items r) ∧
      (ChoosesRight f.items r (f.initWeight.2.getIdx r) ↔ FallsOnFirst f.items r) :=
  ⟨weightIdx_right_iff hw r, weightIdx_right_iff hf r⟩

/-- The items with these weights, all of them valid. -/
def weighted (weights : List Int32) : List LoadBalanceItem := weights.map (fun weight => ⟨weight, true⟩)

theorem weighs_three : Weighs (weighted [3, 0, 1]) := ⟨by decide, by decide⟩

theorem getIdx_right_three :
    ChoosesRight (weighted [3, 0, 1]) 6
        ((WeightLoadBalance.mk ⟨weighted [3, 0, 1], by decide⟩ []).initWeight.2.getIdx 6) ∧
      ChoosesRight (weighted [3, 0, 1]) 6
        ((FairLoadBalance.mk ⟨weighted [3, 0, 1], by decide⟩ []).initWeight.2.getIdx 6) := by
  obtain ⟨hw, hf⟩ := getIdx_right_iff ⟨⟨weighted [3, 0, 1], by decide⟩, []⟩
    ⟨⟨weighted [3, 0, 1], by decide⟩, []⟩ weighs_three weighs_three 6
  have hfirst : FallsOnFirst (weighted [3, 0, 1]) 6 := .inr (by decide)
  exact ⟨hw.mpr hfirst, hf.mpr hfirst⟩

/-- The second of two items is told as `-1`, and without a weight the remainder does not exist. -/
theorem getIdx_second_wrong :
    (WeightLoadBalance.mk ⟨weighted [1, 1], by decide⟩ []).initWeight.2.getIdx 1 = some (-1) ∧
    FallsOn (weighted [1, 1]) 1 1 ∧
    ¬ChoosesRight (weighted [1, 1]) 1
      ((WeightLoadBalance.mk ⟨weighted [1, 1], by decide⟩ []).initWeight.2.getIdx 1) ∧
    (FairLoadBalance.mk ⟨weighted [0], by decide⟩ []).initWeight.2.getIdx 1 = none ∧
    ¬ChoosesRight (weighted [0]) 1
      ((FairLoadBalance.mk ⟨weighted [0], by decide⟩ []).initWeight.2.getIdx 1) := by
  refine ⟨by decide, by decide, ?_, by decide, ?_⟩
  · exact (weightIdx_right_iff ⟨by decide, by decide⟩ 1).not.mpr (by decide)
  · rintro ⟨-, hzero⟩
    exact hzero rfl (by decide)

/-! ## The search for a valid item -/

/-- A valid item is returned, or there is none. -/
def FindsLive (items : List LoadBalanceItem) (result : Option LoadBalanceItem) : Prop :=
  Finds LoadBalanceItem.valid items result

/-- The place in the list that the random number comes to. -/
def chosen (items : List LoadBalanceItem) (r : Nat) : Nat :=
  upperBound (weightSums 0 items) (remainder r (totalWeight (weightSums 0 items)))

/-- The place with its sign turned round, as a `size_t`. -/
def startAt (it : Nat) : Nat := ((Int32.ofInt (-(it : Int))).toInt % 2 ^ 64).toNat

/-- No item is valid, or the place is not told as `-1` and the search from its negative comes to a
valid one. -/
def LiveReached (items : List LoadBalanceItem) (it : Nat) : Prop :=
  (∀ h ∈ items, h.valid = false) ∨
    it % 2 ^ 32 ≠ 1 ∧ ∃ p < items.length, ∃ h, items[p]? = some h ∧ h.valid = true ∧
      Reaches (2 ^ 64) items.length (startAt it) p

theorem LoadBalance.scan_findsLive_iff {lb : LoadBalance} {start : Nat} (hs : start < 2 ^ 64) :
    FindsLive lb.items (lb.scan start) ↔ (∀ h ∈ lb.items, h.valid = false) ∨
      ∃ p < lb.items.length, ∃ h, lb.items[p]? = some h ∧ h.valid = true ∧
        Reaches (2 ^ 64) lb.items.length start p := by
  have hle := lb.length_le
  rw [MAX_ITEMS] at hle
  exact search_finds_iff hs (by omega)

/-- Round robin looks at every item. -/
theorem roundRobin_findsLive (lb : LoadBalance) (r : Nat) :
    FindsLive lb.items (RoundRobinLoadBalance.get lb r) := by
  have hle := lb.length_le
  rw [MAX_ITEMS] at hle
  rw [RoundRobinLoadBalance.get]
  split
  · next hempty =>
    intro h hh
    rw [List.isEmpty_iff.mp hempty] at hh
    cases hh
  · have hlt := Nat.mod_lt (r % lb.items.length) (show 0 < 2 ^ 32 by decide)
    rw [LoadBalance.scan_findsLive_iff (by omega)]
    by_cases hall : ∀ h ∈ lb.items, h.valid = false
    · exact .inl hall
    · simp only [not_forall, Bool.not_eq_false] at hall
      obtain ⟨h, hh, hvalid⟩ := hall
      obtain ⟨p, hp⟩ := List.mem_iff_getElem?.mp hh
      obtain ⟨hlt, -⟩ := List.getElem?_eq_some_iff.mp hp
      exact .inr ⟨p, hlt, h, hp, hvalid, reaches_of_le (by omega) hlt⟩

theorem ofInt_neg_one_iff (it : Nat) : Int32.ofInt (-(it : Int)) = -1 ↔ it % 2 ^ 32 = 1 := by
  rw [← Int32.toInt_inj, Int32.toInt_ofInt, show Int32.size = 2 ^ 32 from rfl,
    show (-1 : Int32).toInt = -1 from rfl, Int.bmod_def]
  split <;> omega

theorem getWeighted_findsLive_iff (lb : LoadBalance) (it : Nat) :
    FindsLive lb.items (lb.getWeighted (Int32.ofInt (-(it : Int)))) ↔ LiveReached lb.items it := by
  have hlt : startAt it < 2 ^ 64 := by
    rw [startAt]
    omega
  have hsentinel := ofInt_neg_one_iff it
  rw [LoadBalance.getWeighted, LiveReached]
  by_cases hone : it % 2 ^ 32 = 1
  · rw [if_pos (hsentinel.mpr hone)]
    exact ⟨.inl, fun h => h.resolve_right fun hreached => hreached.1 hone⟩
  · rw [if_neg (hsentinel.not.mpr hone)]
    exact (LoadBalance.scan_findsLive_iff hlt).trans (or_congr_right (and_iff_right hone).symm)

/-- What `get` returns when the weights are those of the items. -/
theorem map_getWeighted_iff {lb : LoadBalance} (hne : lb.items ≠ [])
    (hpos : 0 < totalWeight (weightSums 0 lb.items)) (r : Nat) :
    (∃ result, (weightIdx (weightSums 0 lb.items) r).map lb.getWeighted = some result ∧
      FindsLive lb.items result) ↔ LiveReached lb.items (chosen lb.items r) := by
  have hnonempty : (weightSums 0 lb.items).isEmpty = false := by
    rw [← Bool.not_eq_true, List.isEmpty_iff, ← List.length_eq_zero_iff, length_weightSums,
      List.length_eq_zero_iff]
    exact hne
  have htotal : totalWeight (weightSums 0 lb.items) ≠ 0 := (Int32.ne_of_lt hpos).symm
  rw [← getWeighted_findsLive_iff]
  simp [weightIdx, hnonempty, htotal, chosen]

/-- Round robin finds a valid item whenever there is one. With weights one is found exactly when the
search comes to one, which it may fail to do. -/
theorem get_findsLive (lb : LoadBalance) (w : WeightLoadBalance) (f : FairLoadBalance)
    (hw : w.items ≠ []) (hw' : 0 < w.initWeight.1) (hf : f.items ≠ []) (hf' : 0 < f.initWeight.1)
    (r : Nat) :
    FindsLive lb.items (RoundRobinLoadBalance.get lb r) ∧
    ((∃ result, w.initWeight.2.get r = some result ∧ FindsLive w.items result) ↔
      LiveReached w.items (chosen w.items r)) ∧
    ((∃ result, f.initWeight.2.get r = some result ∧ FindsLive f.items result) ↔
      LiveReached f.items (chosen f.items r)) :=
  ⟨roundRobin_findsLive lb r, map_getWeighted_iff hw hw' r, map_getWeighted_iff hf hf' r⟩

/-- Four items, and the random number falls on the last one. -/
theorem get_findsLive_four : ∃ result,
    (WeightLoadBalance.mk ⟨weighted [1, 1, 1, 1], by decide⟩ []).initWeight.2.get 3 = some result ∧
      FindsLive (weighted [1, 1, 1, 1]) result := by
  have hlive : LiveReached (weighted [1, 1, 1, 1]) (chosen (weighted [1, 1, 1, 1]) 3) :=
    .inr ⟨by decide, 0, by decide, ⟨1, true⟩, by decide, rfl, by decide⟩
  exact (get_findsLive ⟨weighted [1, 1, 1, 1], by decide⟩ ⟨⟨weighted [1, 1, 1, 1], by decide⟩, []⟩
    ⟨⟨weighted [1, 1, 1, 1], by decide⟩, []⟩ (by decide) (by decide) (by decide) (by decide) 3).2.1.mpr hlive

/-- Two valid items, and the random number falls on the second one; three items of which only the
second is valid, and it falls on the last. -/
theorem get_misses_live :
    (WeightLoadBalance.mk ⟨weighted [1, 1], by decide⟩ []).initWeight.2.get 1 = some none ∧
    (FairLoadBalance.mk ⟨[⟨1, false⟩, ⟨1, true⟩, ⟨1, false⟩], by decide⟩ []).initWeight.2.get 2 =
      some none ∧
    ¬FindsLive (weighted [1, 1]) none ∧ ¬FindsLive [⟨1, false⟩, ⟨1, true⟩, ⟨1, false⟩] none := by
  refine ⟨by decide, by decide, ?_, ?_⟩
  · intro h
    exact absurd (h ⟨1, true⟩ (by decide)) (by decide)
  · intro h
    exact absurd (h ⟨1, true⟩ (by decide)) (by decide)

end CxkFramework
