import Mathlib.Data.List.Basic

/-!
# Maps kept in order of their keys

A map under a strict weak order `less` of its keys, as the list of its entries from the first key to
the last. Two keys are the same to it when neither is less than the other; an entry keeps the key it
was first given.
-/

namespace CxkFramework.OrderedMap

variable {κ ν : Type*}

def same (less : κ → κ → Bool) (a b : κ) : Bool := !less a b && !less b a

/-- `m[key] = val`. -/
def insert (less : κ → κ → Bool) (key : κ) (val : ν) : List (κ × ν) → List (κ × ν)
  | [] => [(key, val)]
  | (k, v) :: rest =>
    if less key k then (key, val) :: (k, v) :: rest
    else if less k key then (k, v) :: insert less key val rest
    else (k, val) :: rest

def find (less : κ → κ → Bool) (key : κ) (m : List (κ × ν)) : Option ν :=
  (m.find? fun h => same less h.1 key).map Prod.snd

/-- `m.erase(key)`. -/
def erase (less : κ → κ → Bool) (key : κ) (m : List (κ × ν)) : List (κ × ν) :=
  m.filter fun h => !same less h.1 key

/-- Entries inserted one after the other. -/
def insertAll (less : κ → κ → Bool) : List (κ × ν) → List (κ × ν) → List (κ × ν)
  | [], m => m
  | h :: hs, m => insertAll less hs (insert less h.1 h.2 m)

def Sorted (less : κ → κ → Bool) (m : List (κ × ν)) : Prop :=
  m.Pairwise fun a b => less a.1 b.1 = true

/-- To be the same is an equivalence, and the order does not tell the same keys apart. -/
structure StrictWeak (less : κ → κ → Bool) : Prop where
  irrefl : ∀ a, less a a = false
  trans : ∀ a b c, less a b = true → less b c = true → less a c = true
  weak : ∀ a b c, less a c = true → less a b = true ∨ less b c = true

/-- A property of keys that does not tell the same keys apart. -/
def Respects (less : κ → κ → Bool) (P : κ → Bool) : Prop :=
  ∀ a b, same less a b = true → P a = P b

section Order

variable {less : κ → κ → Bool} {m : List (κ × ν)} {key key' : κ} {val : ν} {P : κ → Bool}

theorem same_iff {a b : κ} : same less a b = true ↔ less a b = false ∧ less b a = false := by
  simp [same]

theorem same_comm (less : κ → κ → Bool) (a b : κ) : same less a b = same less b a := Bool.and_comm _ _

theorem StrictWeak.same_of_less (h : StrictWeak less) {a b : κ} (hab : less a b = true) :
    same less a b = false ∧ less b a = false := by
  have hba : less b a = false := by
    cases hba : less b a with
    | false => rfl
    | true => exact (h.trans a b a hab hba).symm.trans (h.irrefl a)
  exact ⟨by rw [same, hab]; rfl, hba⟩

theorem StrictWeak.same_trans (h : StrictWeak less) {a b c : κ} (hab : same less a b = true)
    (hbc : same less b c = true) : same less a c = true := by
  obtain ⟨hab₁, hab₂⟩ := same_iff.mp hab
  obtain ⟨hbc₁, hbc₂⟩ := same_iff.mp hbc
  refine same_iff.mpr ⟨?_, ?_⟩
  · cases hac : less a c with
    | false => rfl
    | true =>
      cases h.weak a b c hac with
      | inl hless => exact hless.symm.trans hab₁
      | inr hless => exact hless.symm.trans hbc₁
  · cases hca : less c a with
    | false => rfl
    | true =>
      cases h.weak c b a hca with
      | inl hless => exact hless.symm.trans hbc₂
      | inr hless => exact hless.symm.trans hab₂

theorem find_cons (k : κ) (v : ν) :
    find less key ((k, v) :: m) = if same less k key then some v else find less key m := by
  cases hsame : same less k key with
  | false => simp [find, hsame]
  | true => simp [find, hsame]

/-- What is inserted is found. -/
theorem find_insert (h : StrictWeak less) (hkey : same less key key' = true) :
    find less key' (insert less key val m) = some val := by
  induction m with
  | nil => rw [insert, find_cons, if_pos hkey]
  | cons e m ih =>
    obtain ⟨k, v⟩ := e
    rw [insert]
    by_cases hless : less key k = true
    · rw [if_pos hless, find_cons, if_pos hkey]
    · by_cases hmore : less k key = true
      · have hother : ¬same less k key' = true := by
          intro hsame
          have hcomm := same_comm less key key'
          have hall := h.same_trans hsame (hcomm ▸ hkey)
          rw [(h.same_of_less hmore).1] at hall
          cases hall
        rw [if_neg hless, if_pos hmore, find_cons, if_neg hother, ih]
      · have hsame : same less k key = true :=
          same_iff.mpr ⟨Bool.eq_false_iff.mpr hmore, Bool.eq_false_iff.mpr hless⟩
        rw [if_neg hless, if_neg hmore, find_cons, if_pos (h.same_trans hsame hkey)]

/-- Nothing else changes. -/
theorem find_insert_other (h : StrictWeak less) (hkey : same less key key' = false) :
    find less key' (insert less key val m) = find less key' m := by
  have hne : ¬same less key key' = true := Bool.eq_false_iff.mp hkey
  induction m with
  | nil => rw [insert, find_cons, if_neg hne]
  | cons e m ih =>
    obtain ⟨k, v⟩ := e
    rw [insert]
    by_cases hless : less key k = true
    · rw [if_pos hless, find_cons, if_neg hne]
    · by_cases hmore : less k key = true
      · rw [if_neg hless, if_pos hmore, find_cons, find_cons, ih]
      · have hsame : same less key k = true :=
          same_iff.mpr ⟨Bool.eq_false_iff.mpr hless, Bool.eq_false_iff.mpr hmore⟩
        have hother : ¬same less k key' = true := fun hk => hne (h.same_trans hsame hk)
        rw [if_neg hless, if_neg hmore, find_cons, find_cons, if_neg hother, if_neg hother]

theorem find_erase (h : StrictWeak less) (hkey : same less key key' = true) :
    find less key' (erase less key m) = none := by
  induction m with
  | nil => rfl
  | cons e m ih =>
    obtain ⟨k, v⟩ := e
    rw [erase, List.filter_cons]
    split
    · next hkeep =>
      have hother : ¬same less k key' = true := by
        intro hsame
        rw [h.same_trans hsame (same_comm less key' key ▸ hkey)] at hkeep
        cases hkeep
      rw [find_cons, if_neg hother]
      exact ih
    · exact ih

theorem find_erase_other (h : StrictWeak less) (hkey : same less key key' = false) :
    find less key' (erase less key m) = find less key' m := by
  induction m with
  | nil => rfl
  | cons e m ih =>
    obtain ⟨k, v⟩ := e
    rw [erase, List.filter_cons]
    split
    · rw [find_cons, find_cons]
      split
      · rfl
      · exact ih
    · next hgone =>
      have hk : same less k key = true := by simpa using hgone
      have hother : ¬same less k key' = true := by
        intro hsame
        rw [h.same_trans (same_comm less key k ▸ hk) hsame] at hkey
        cases hkey
      rw [find_cons, if_neg hother]
      exact ih

theorem find_congr (h : StrictWeak less) (hkey : same less key key' = true) :
    find less key m = find less key' m := by
  induction m with
  | nil => rfl
  | cons e m ih =>
    obtain ⟨k, v⟩ := e
    have hiff : same less k key = true ↔ same less k key' = true :=
      ⟨fun hk => h.same_trans hk hkey, fun hk => h.same_trans hk (same_comm less key' key ▸ hkey)⟩
    rw [find_cons, find_cons, ih]
    simp only [hiff]

theorem find_insertAll_other (h : StrictWeak less) {hs : List (κ × ν)}
    (hother : ∀ e ∈ hs, same less e.1 key = false) :
    find less key (insertAll less hs m) = find less key m := by
  induction hs generalizing m with
  | nil => rfl
  | cons e hs ih =>
    rw [insertAll, ih (fun e' he' => hother e' (List.mem_cons_of_mem e he')),
      find_insert_other h (hother e List.mem_cons_self)]

/-- The last entry for a key is the one that is found. -/
theorem find_insertAll (h : StrictWeak less) (hs : List (κ × ν)) :
    find less key (insertAll less hs m) =
      ((hs.reverse.find? fun e => same less e.1 key).map Prod.snd).or (find less key m) := by
  induction hs generalizing m with
  | nil => rfl
  | cons e hs ih =>
    rw [insertAll, ih, List.reverse_cons, List.find?_append]
    cases hs.reverse.find? fun e => same less e.1 key with
    | some found => rfl
    | none =>
      cases hsame : same less e.1 key with
      | true => simp [find_insert h hsame, hsame]
      | false => simp [find_insert_other h hsame, hsame]

theorem insertAll_append (hs hs' : List (κ × ν)) :
    insertAll less (hs ++ hs') m = insertAll less hs' (insertAll less hs m) := by
  induction hs generalizing m with
  | nil => rfl
  | cons e hs ih => exact ih

theorem find_insertAll_last (h : StrictWeak less) {k : κ} {hs hs' : List (κ × ν)}
    (hkey : same less k key = true) (hother : ∀ e ∈ hs', same less e.1 key = false) :
    find less key (insertAll less (hs ++ (k, val) :: hs') m) = some val := by
  rw [insertAll_append, insertAll, find_insertAll_other h hother]
  exact find_insert h hkey

theorem mem_insert {e : κ × ν} (he : e ∈ insert less key val m) :
    e ∈ m ∨ same less e.1 key = true ∨ e = (key, val) := by
  induction m with
  | nil =>
    rw [insert, List.mem_singleton] at he
    exact .inr (.inr he)
  | cons e' m ih =>
    obtain ⟨k, v⟩ := e'
    rw [insert] at he
    by_cases hless : less key k = true
    · rw [if_pos hless, List.mem_cons] at he
      cases he with
      | inl heq => exact .inr (.inr heq)
      | inr hmem => exact .inl hmem
    · by_cases hmore : less k key = true
      · rw [if_neg hless, if_pos hmore, List.mem_cons] at he
        cases he with
        | inl heq => exact .inl (heq ▸ List.mem_cons_self)
        | inr hmem => exact (ih hmem).imp_left (List.mem_cons_of_mem _)
      · rw [if_neg hless, if_neg hmore, List.mem_cons] at he
        cases he with
        | inl heq =>
          subst heq
          exact .inr (.inl (same_iff.mpr
            ⟨Bool.eq_false_iff.mpr hmore, Bool.eq_false_iff.mpr hless⟩))
        | inr hmem => exact .inl (List.mem_cons_of_mem _ hmem)

theorem mem_insert_value (h : StrictWeak less) {e : κ × ν} (he : e ∈ insert less key val m) :
    e ∈ m ∨ same less e.1 key = true ∧ e.2 = val := by
  induction m with
  | nil =>
    rw [insert, List.mem_singleton] at he
    exact .inr (he ▸ ⟨same_iff.mpr ⟨h.irrefl key, h.irrefl key⟩, rfl⟩)
  | cons e' m ih =>
    obtain ⟨k, v⟩ := e'
    rw [insert] at he
    by_cases hless : less key k = true
    · rw [if_pos hless, List.mem_cons] at he
      cases he with
      | inl heq => exact .inr (heq ▸ ⟨same_iff.mpr ⟨h.irrefl key, h.irrefl key⟩, rfl⟩)
      | inr hmem => exact .inl hmem
    · by_cases hmore : less k key = true
      · rw [if_neg hless, if_pos hmore, List.mem_cons] at he
        cases he with
        | inl heq => exact .inl (heq ▸ List.mem_cons_self)
        | inr hmem => exact (ih hmem).imp_left (List.mem_cons_of_mem _)
      · rw [if_neg hless, if_neg hmore, List.mem_cons] at he
        cases he with
        | inl heq =>
          subst heq
          exact .inr ⟨same_iff.mpr
            ⟨Bool.eq_false_iff.mpr hmore, Bool.eq_false_iff.mpr hless⟩, rfl⟩
        | inr hmem => exact .inl (List.mem_cons_of_mem _ hmem)

/-- The order is kept. -/
theorem Sorted.insert (h : StrictWeak less) (hm : Sorted less m) :
    Sorted less (OrderedMap.insert less key val m) := by
  induction m with
  | nil => exact List.pairwise_singleton _ _
  | cons e m ih =>
    obtain ⟨k, v⟩ := e
    obtain ⟨hhead, htail⟩ := List.pairwise_cons.mp hm
    rw [OrderedMap.insert]
    by_cases hless : less key k = true
    · rw [if_pos hless]
      refine List.pairwise_cons.mpr ⟨?_, hm⟩
      intro e he
      cases List.mem_cons.mp he with
      | inl heq => exact heq ▸ hless
      | inr hmem => exact h.trans _ _ _ hless (hhead e hmem)
    · by_cases hmore : less k key = true
      · rw [if_neg hless, if_pos hmore]
        refine List.pairwise_cons.mpr ⟨?_, ih htail⟩
        intro e he
        rcases mem_insert he with hmem | hsame | heq
        · exact hhead e hmem
        · cases h.weak k e.1 key hmore with
          | inl hlt => exact hlt
          | inr hlt =>
            rw [(same_iff.mp hsame).1] at hlt
            cases hlt
        · exact heq ▸ hmore
      · rw [if_neg hless, if_neg hmore]
        exact List.pairwise_cons.mpr ⟨hhead, htail⟩

theorem Sorted.insertAll (h : StrictWeak less) (hm : Sorted less m) (hs : List (κ × ν)) :
    Sorted less (OrderedMap.insertAll less hs m) := by
  induction hs generalizing m with
  | nil => exact hm
  | cons e hs ih => exact ih (hm.insert h)

/-- A key and a value may come from different insertions. -/
theorem forall_insert {K : κ → Prop} {V : ν → Prop} (hm : ∀ e ∈ m, K e.1 ∧ V e.2) (hkey : K key)
    (hval : V val) : ∀ e ∈ insert less key val m, K e.1 ∧ V e.2 := by
  induction m with
  | nil =>
    intro e he
    rw [insert, List.mem_singleton] at he
    exact he ▸ ⟨hkey, hval⟩
  | cons e m ih =>
    obtain ⟨k, v⟩ := e
    have hfirst := hm (k, v) List.mem_cons_self
    have hrest := ih fun e he => hm e (List.mem_cons_of_mem _ he)
    rw [insert]
    split
    · exact List.forall_mem_cons.mpr ⟨⟨hkey, hval⟩, hm⟩
    · split
      · exact List.forall_mem_cons.mpr ⟨hfirst, hrest⟩
      · exact List.forall_mem_cons.mpr
          ⟨⟨hfirst.1, hval⟩, fun e he => hm e (List.mem_cons_of_mem _ he)⟩

theorem forall_insertAll {K : κ → Prop} {V : ν → Prop} {hs : List (κ × ν)}
    (hm : ∀ e ∈ m, K e.1 ∧ V e.2) (hall : ∀ e ∈ hs, K e.1 ∧ V e.2) :
    ∀ e ∈ insertAll less hs m, K e.1 ∧ V e.2 := by
  induction hs generalizing m with
  | nil => exact hm
  | cons e hs ih =>
    have hfirst := hall e List.mem_cons_self
    exact ih (forall_insert hm hfirst.1 hfirst.2) fun e he => hall e (List.mem_cons_of_mem _ he)

theorem Sorted.filter (hm : Sorted less m) (p : κ × ν → Bool) : Sorted less (m.filter p) :=
  List.Pairwise.filter p hm

/-- A key less than all others comes first. -/
theorem insert_first (hfirst : ∀ e ∈ m, less key e.1 = true) :
    insert less key val m = (key, val) :: m := by
  cases m with
  | nil => rfl
  | cons e m => rw [insert, if_pos (hfirst e List.mem_cons_self)]

/-- A key greater than all others comes last. -/
theorem insert_last (h : StrictWeak less) (hlast : ∀ e ∈ m, less e.1 key = true) :
    insert less key val m = m ++ [(key, val)] := by
  induction m with
  | nil => rfl
  | cons e m ih =>
    have hmore := hlast e List.mem_cons_self
    have hless : ¬less key e.1 = true := Bool.eq_false_iff.mp (h.same_of_less hmore).2
    rw [insert, if_neg hless, if_pos hmore, ih (fun e' he' => hlast e' (List.mem_cons_of_mem e he'))]
    rfl

/-- Entries in order are a map. -/
theorem insertAll_sorted (h : StrictWeak less) {hs : List (κ × ν)} (hall : Sorted less (m ++ hs)) :
    insertAll less hs m = m ++ hs := by
  induction hs generalizing m with
  | nil => rw [insertAll, List.append_nil]
  | cons e hs ih =>
    have hlast : ∀ e' ∈ m, less e'.1 e.1 = true := by
      intro e' he'
      exact (List.pairwise_append.mp hall).2.2 e' he' e List.mem_cons_self
    have hsplit : m ++ e :: hs = m ++ [e] ++ hs := by
      rw [List.append_assoc, List.singleton_append]
    rw [hsplit] at hall ⊢
    rw [insertAll, insert_last h hlast]
    exact ih hall

theorem filter_insert_not (hP : Respects less P) (hkey : P key = false) :
    (insert less key val m).filter (fun e => P e.1) = m.filter fun e => P e.1 := by
  induction m with
  | nil => rw [insert, List.filter_cons_of_neg (by rw [hkey]; exact Bool.false_ne_true)]
  | cons e m ih =>
    obtain ⟨k, v⟩ := e
    rw [insert]
    by_cases hless : less key k = true
    · rw [if_pos hless, List.filter_cons_of_neg (by rw [hkey]; exact Bool.false_ne_true)]
    · by_cases hmore : less k key = true
      · rw [if_neg hless, if_pos hmore, List.filter_cons, List.filter_cons, ih]
      · have hsame := hP k key (same_iff.mpr
          ⟨Bool.eq_false_iff.mpr hmore, Bool.eq_false_iff.mpr hless⟩)
        rw [if_neg hless, if_neg hmore, List.filter_cons_of_neg, List.filter_cons_of_neg]
        · rw [hsame, hkey]
          exact Bool.false_ne_true
        · rw [hsame, hkey]
          exact Bool.false_ne_true

theorem filter_insert (h : StrictWeak less) (hm : Sorted less m) (hP : Respects less P)
    (hkey : P key = true) : (insert less key val m).filter (fun e => P e.1) =
      insert less key val (m.filter fun e => P e.1) := by
  induction m with
  | nil =>
    rw [insert, List.filter_cons, if_pos hkey]
    rfl
  | cons e m ih =>
    obtain ⟨k, v⟩ := e
    obtain ⟨hhead, htail⟩ := List.pairwise_cons.mp hm
    by_cases hless : less key k = true
    · have hfirst : ∀ e ∈ ((k, v) :: m).filter fun e => P e.1, less key e.1 = true := by
        intro e he
        cases List.mem_cons.mp (List.mem_of_mem_filter he) with
        | inl heq => exact heq ▸ hless
        | inr hmem => exact h.trans _ _ _ hless (hhead e hmem)
      rw [insert_first hfirst, insert, if_pos hless, List.filter_cons, if_pos hkey]
    · by_cases hmore : less k key = true
      · rw [insert, if_neg hless, if_pos hmore, List.filter_cons, List.filter_cons, ih htail]
        by_cases hk : P k = true
        · rw [if_pos hk, if_pos hk, insert, if_neg hless, if_pos hmore]
        · rw [if_neg hk, if_neg hk]
      · have hk : P k = true := by
          rw [hP k key (same_iff.mpr ⟨Bool.eq_false_iff.mpr hmore, Bool.eq_false_iff.mpr hless⟩),
            hkey]
        rw [insert, if_neg hless, if_neg hmore, List.filter_cons, if_pos hk, List.filter_cons,
          if_pos hk, insert, if_neg hless, if_neg hmore]

/-- The entries with a property come from the inserted ones with the property. -/
theorem filter_insertAll (h : StrictWeak less) (hP : Respects less P) (hm : Sorted less m)
    (hs : List (κ × ν)) : (insertAll less hs m).filter (fun e => P e.1) =
      insertAll less (hs.filter fun e => P e.1) (m.filter fun e => P e.1) := by
  induction hs generalizing m with
  | nil => rfl
  | cons e hs ih =>
    rw [insertAll, ih (hm.insert h)]
    cases hkey : P e.1 with
    | false =>
      rw [List.filter_cons_of_neg (by rw [hkey]; exact Bool.false_ne_true),
        filter_insert_not hP hkey]
    | true => rw [List.filter_cons, if_pos hkey, insertAll, filter_insert h hm hP hkey]

/-- What has the property is found among the entries with it. -/
theorem find_filter (hP : Respects less P) (hkey : P key = true) :
    find less key (m.filter fun e => P e.1) = find less key m := by
  induction m with
  | nil => rfl
  | cons e m ih =>
    obtain ⟨k, v⟩ := e
    rw [List.filter_cons, find_cons]
    by_cases hsame : same less k key = true
    · have hk : P k = true := (hP k key hsame).trans hkey
      rw [if_pos hk, find_cons, if_pos hsame, if_pos hsame]
    · rw [if_neg hsame, ← ih]
      split
      · rw [find_cons, if_neg hsame]
      · rfl

end Order

end CxkFramework.OrderedMap
