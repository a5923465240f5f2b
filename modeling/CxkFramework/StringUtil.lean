import CxkFramework.Substrings

/-!
# Splitting and replacing

The two overloads of `split` and the three of `replace` of the hash utilities.
-/

namespace CxkFramework.StringUtil

open Substrings

/-! ## The searches of a string -/

/-- A search from `pos` on: none for `npos`. -/
def searchFrom (P : List UInt8 → Bool) (str : List UInt8) (pos : Nat) : Option Nat :=
  if str.length < pos then none else (search P (str.drop pos)).map (pos + ·)

/-- Whether the suffix starts with such a character. -/
def startsWith (p : UInt8 → Bool) (t : List UInt8) : Bool := t.head?.any p

/-- `str.find(c, pos)`. -/
def findChar (c : UInt8) : List UInt8 → Nat → Option Nat := searchFrom (startsWith (· == c))

/-- `str.find(find, pos)`. -/
def findString (find : List UInt8) : List UInt8 → Nat → Option Nat :=
  searchFrom (find.isPrefixOf ·)

theorem searchFrom_bounds {P : List UInt8 → Bool} {str : List UInt8} {last pos : Nat}
    (h : searchFrom P str last = some pos) : last ≤ pos ∧ pos ≤ str.length := by
  rw [searchFrom] at h
  split at h
  · cases h
  · obtain ⟨k, hk, rfl⟩ := Option.map_eq_some_iff.mp h
    have hlength := (search_some hk).1
    rw [List.length_drop] at hlength
    omega

/-! ## `split` -/

/-- The loop of both overloads from `last` on, over what they search for. -/
def splitLoop (P : List UInt8 → Bool) (str : List UInt8) (last : Nat) (max : UInt64) :
    List (List UInt8) :=
  match _hpos : searchFrom P str last with
  | none => [str.drop last]
  | some pos =>
    (str.drop last).take (pos - last) ::
      if max - 1 = 1 then [str.drop (pos + 1)] else splitLoop P str (pos + 1) (max - 1)
termination_by str.length + 1 - last
decreasing_by
  have hbounds := searchFrom_bounds _hpos
  omega

def split (str : List UInt8) (delim : UInt8) (max : UInt64) : List (List UInt8) :=
  if str = [] then [] else splitLoop (startsWith (· == delim)) str 0 max

/-- The overload for a set of delimiters, which ends at its first zero. -/
def splitAny (str delims : List UInt8) (max : UInt64) : List (List UInt8) :=
  if str = [] then []
  else splitLoop (startsWith ((delims.takeWhile (· != 0)).contains ·)) str 0 max

/-- A character that is found stands behind characters that are not looked for. -/
theorem searchFrom_startsWith {p : UInt8 → Bool} {str : List UInt8} {last pos : Nat}
    (h : searchFrom (startsWith p) str last = some pos) :
    last ≤ pos ∧ ∃ d, p d = true ∧ (∀ c ∈ (str.drop last).take (pos - last), p c = false) ∧
      str.drop last = (str.drop last).take (pos - last) ++ d :: str.drop (pos + 1) := by
  rw [searchFrom] at h
  split at h
  · cases h
  · obtain ⟨k, hk, rfl⟩ := Option.map_eq_some_iff.mp h
    obtain ⟨hlength, hfound, hbefore⟩ := search_some hk
    have hsub : last + k - last = k := by omega
    rw [hsub]
    cases hrest : (str.drop last).drop k with
    | nil =>
      rw [hrest] at hfound
      cases hfound
    | cons d rest =>
      rw [hrest] at hfound
      refine ⟨by omega, d, by simpa [startsWith] using hfound, ?_, ?_⟩
      · intro c hc
        obtain ⟨j, hj, hget⟩ := List.mem_iff_getElem.mp hc
        rw [List.length_take] at hj
        have hno := hbefore j (by omega)
        rw [List.getElem_take] at hget
        rw [startsWith, List.head?_drop, List.getElem?_eq_getElem (by omega), hget] at hno
        simpa using hno
      · have hrest' : str.drop (last + k + 1) = rest := by
          rw [Nat.add_assoc, ← List.drop_drop, ← List.drop_drop, hrest]
          rfl
        rw [hrest', ← hrest, List.take_append_drop]

theorem searchFrom_startsWith_none {p : UInt8 → Bool} {str : List UInt8} {last : Nat}
    (h : searchFrom (startsWith p) str last = none) : ∀ c ∈ str.drop last, p c = false := by
  intro c hc
  obtain ⟨j, hj, hget⟩ := List.mem_iff_getElem.mp hc
  rw [searchFrom] at h
  split at h
  · rw [List.length_drop] at hj
    omega
  · have hno := search_none (Option.map_eq_none_iff.mp h) j (by omega)
    rw [startsWith, List.head?_drop, List.getElem?_eq_getElem hj, hget] at hno
    simpa using hno

/-- The cuts the loop has left: the limit is counted down first and compared with one then. -/
def cuts (max : UInt64) : Nat := (max - 2).toNat + 1

theorem cuts_step {max : UInt64} (h : max - 1 ≠ 1) : cuts max = cuts (max - 1) + 1 := by
  have hmax := max.toNat_lt
  rw [Ne, ← UInt64.toNat_inj] at h
  simp only [cuts, UInt64.toNat_sub, UInt64.toNat_ofNat] at h ⊢
  omega

theorem cuts_last {max : UInt64} (h : max - 1 = 1) : cuts max = 0 + 1 := by
  have hmax := max.toNat_lt
  rw [← UInt64.toNat_inj] at h
  simp only [cuts, UInt64.toNat_sub, UInt64.toNat_ofNat] at h ⊢
  omega

theorem cuts_of_two_le {max : UInt64} (h : 2 ≤ max) : cuts max + 1 = max.toNat := by
  have hmax := max.toNat_lt
  have hle := UInt64.le_iff_toNat_le.mp h
  simp only [cuts, UInt64.toNat_sub, UInt64.toNat_ofNat] at hle ⊢
  omega

/-- The pieces are the string behind `last`, cut as often as the limit still allows. -/
theorem splitLoop_cut (p : UInt8 → Bool) (str : List UInt8) (last : Nat) (max : UInt64) :
    Cut p (cuts max) (splitLoop (startsWith p) str last max) (str.drop last) := by
  induction last, max using splitLoop.induct (startsWith p) str with
  | case1 last max h =>
    have hloop : splitLoop (startsWith p) str last max = [str.drop last] := by
      rw [splitLoop]
      split
      · rfl
      · next h' =>
        rw [h] at h'
        cases h'
    rw [hloop]
    exact .free (searchFrom_startsWith_none h)
  | case2 last max pos h ih =>
    have hloop : splitLoop (startsWith p) str last max =
        (str.drop last).take (pos - last) ::
          if max - 1 = 1 then [str.drop (pos + 1)]
          else splitLoop (startsWith p) str (pos + 1) (max - 1) := by
      rw [splitLoop]
      split
      · next h' =>
        rw [h] at h'
        cases h'
      · next h' =>
        rw [h] at h'
        cases h'
        rfl
    obtain ⟨-, d, hd, hfree, hrest⟩ := searchFrom_startsWith h
    rw [hloop]
    split
    · next hlimit =>
      have hcut := Cut.cut hfree hd (Cut.limit (p := p) (s := str.drop (pos + 1)))
      rw [← hrest] at hcut
      rwa [cuts_last hlimit]
    · next hlimit =>
      have hcut := Cut.cut hfree hd ih
      rw [← hrest] at hcut
      rwa [cuts_step hlimit]

/-! ## What `split` keeps -/

/-- `max` pieces at most, which the delimiter joins to the string; it is in none of them, but for
the last one where the limit is reached. -/
structure Splits (str : List UInt8) (delim : UInt8) (max : UInt64) (pieces : List (List UInt8)) :
    Prop where
  atMost : pieces.length ≤ max.toNat
  joined : [delim].intercalate pieces = str
  free : ∀ piece ∈ pieces.dropLast, delim ∉ piece
  last : pieces.length < max.toNat → ∀ piece ∈ pieces, delim ∉ piece

theorem split_cut {str : List UInt8} (hne : str ≠ []) (delim : UInt8) (max : UInt64) :
    Cut (· == delim) (cuts max) (split str delim max) str := by
  rw [split, if_neg hne]
  exact splitLoop_cut _ str 0 max

theorem not_mem_of_free {piece : List UInt8} {delim : UInt8}
    (h : ∀ c ∈ piece, (c == delim) = false) : delim ∉ piece := by
  intro hmem
  have hself := h delim hmem
  simp at hself

theorem splits_split {str : List UInt8} (hne : str ≠ []) {delim : UInt8} {max : UInt64}
    (h : max ≠ 1) (hmax : 1 ≤ max) : Splits str delim max (split str delim max) := by
  have hcut := split_cut hne delim max
  have hcuts : cuts max + 1 = max.toNat := by
    apply cuts_of_two_le
    rw [Ne, ← UInt64.toNat_inj] at h
    rw [UInt64.le_iff_toNat_le] at hmax ⊢
    simp only [UInt64.toNat_ofNat] at h hmax ⊢
    omega
  exact {
    atMost := hcuts ▸ hcut.length_le
    joined := hcut.interleaved.intercalate
    free := fun piece hpiece => not_mem_of_free (hcut.dropLast_free piece hpiece)
    last := fun hlt piece hpiece => not_mem_of_free (hcut.free_of_lt (hcuts ▸ hlt) piece hpiece) }

/-- A limit of one is counted down past the comparison: the string is cut, and its pieces are at
least two. -/
theorem splits_one {str : List UInt8} (hne : str ≠ []) {delim : UInt8} :
    Splits str delim 1 (split str delim 1) ↔ delim ∉ str := by
  have hcut := split_cut hne delim 1
  constructor
  · intro h hmem
    have htwo := hcut.two_le hmem (by simp)
    have hone := h.atMost
    simp only [UInt64.toNat_ofNat] at hone
    omega
  · intro h
    have hsingle := hcut.eq_single fun c hc => by
      rw [beq_eq_false_iff_ne]
      rintro rfl
      exact h hc
    rw [hsingle]
    exact { atMost := by simp, joined := by simp, free := by simp, last := by simp }

/-- The limit is kept, and nothing lost, if and only if it is not one or there is nothing to cut.
The overload for a set of delimiters cuts at the same places for a single one, and its pieces with
the delimiters between them always are the string. -/
theorem split_keeps_limit {str : List UInt8} (hne : str ≠ []) (delim : UInt8) {max : UInt64}
    (hmax : 1 ≤ max) (delims : List UInt8) :
    (Splits str delim max (split str delim max) ↔ max ≠ 1 ∨ delim ∉ str) ∧
      (delim ≠ 0 → splitAny str [delim] max = split str delim max) ∧
      Interleaved ((delims.takeWhile (· != 0)).contains ·) (splitAny str delims max) str := by
  refine ⟨?_, ?_, ?_⟩
  · by_cases hone : max = 1
    · rw [hone, splits_one hne]
      simp
    · simp [hone, splits_split hne hone hmax]
  · intro hdelim
    have hset : (fun c => ([delim].takeWhile (· != 0)).contains c) = (· == delim) := by
      funext c
      rw [Bool.eq_iff_iff]
      simp [hdelim]
    rw [split, splitAny, hset]
  · rw [splitAny, if_neg hne]
    exact (splitLoop_cut _ str 0 max).interleaved

/-- `"a,b,c"` with limits of one and two. -/
theorem split_limit_one :
    split [97, 44, 98, 44, 99] 44 1 = [[97], [98], [99]] ∧
      ¬Splits [97, 44, 98, 44, 99] 44 1 (split [97, 44, 98, 44, 99] 44 1) := by
  have hpieces : split [97, 44, 98, 44, 99] 44 1 = [[97], [98], [99]] := by decide +kernel
  refine ⟨hpieces, ?_⟩
  intro h
  have hlength := h.atMost
  rw [hpieces] at hlength
  simp at hlength

theorem split_keeps_limit_two :
    (Splits [97, 44, 98, 44, 99] 44 2 (split [97, 44, 98, 44, 99] 44 2) ↔
        (2 : UInt64) ≠ 1 ∨ 44 ∉ [97, 44, 98, 44, (99 : UInt8)]) ∧
      ((44 : UInt8) ≠ 0 →
        splitAny [97, 44, 98, 44, 99] [44] 2 = split [97, 44, 98, 44, 99] 44 2) ∧
      Interleaved (([44, 59].takeWhile (· != 0)).contains ·)
        (splitAny [97, 44, 98, 44, 99] [44, 59] 2) [97, 44, 98, 44, 99] :=
  split_keeps_limit (by decide) 44 (by decide) [44, 59]

/-! ## `replace` -/

/-- The loop of the overload for two characters; none when the rounds run out. -/
def replaceCharLoop (find replaceWith : UInt8) : Nat → List UInt8 → Option Nat →
    Option (List UInt8)
  | _, str, none => some str
  | 0, _, some _ => none
  | rounds + 1, str, some index =>
    let str := str.set index replaceWith
    replaceCharLoop find replaceWith rounds str (findChar find str (index + 1))

def replaceChar (rounds : Nat) (str : List UInt8) (find replaceWith : UInt8) :
    Option (List UInt8) :=
  replaceCharLoop find replaceWith rounds str (findChar find str 0)

/-- The loop of the overloads that put in a string: what they look for is `width` characters. -/
def replaceLoop (findFrom : List UInt8 → Nat → Option Nat) (width : Nat)
    (replaceWith : List UInt8) : Nat → List UInt8 → Option Nat → Option (List UInt8)
  | _, str, none => some str
  | 0, _, some _ => none
  | rounds + 1, str, some index =>
    let str := str.take index ++ replaceWith ++ str.drop (index + width)
    replaceLoop findFrom width replaceWith rounds str (findFrom str (index + replaceWith.length))

/-- A character replaced by a string. -/
def replaceCharBy (rounds : Nat) (str : List UInt8) (find : UInt8) (replaceWith : List UInt8) :
    Option (List UInt8) :=
  replaceLoop (findChar find) 1 replaceWith rounds str (findChar find str 0)

def replaceString (rounds : Nat) (str find replaceWith : List UInt8) : Option (List UInt8) :=
  replaceLoop (findString find) find.length replaceWith rounds str (findString find str 0)

/-- A character is found where the string of this character alone is. -/
theorem findChar_eq (find : UInt8) : findChar find = findString [find] := by
  have hP : startsWith (· == find) = ([find].isPrefixOf ·) := by
    funext t
    cases t <;> simp [startsWith, List.isPrefixOf, Bool.beq_comm]
  rw [findChar, findString, hP]

theorem findString_some {find front rest : List UInt8} {pos : Nat}
    (h : findString find (front ++ rest) front.length = some pos) :
    ∃ u s, rest = u ++ find ++ s ∧ pos = front.length + u.length ∧
      ∀ j < u.length, ¬find <+: (u ++ find ++ s).drop j := by
  rw [findString, searchFrom] at h
  split at h
  · cases h
  · rw [List.drop_left] at h
    obtain ⟨k, hk, rfl⟩ := Option.map_eq_some_iff.mp h
    obtain ⟨hlength, hfound, hbefore⟩ := search_some hk
    obtain ⟨s, hs⟩ := List.isPrefixOf_iff_prefix.mp hfound
    have hrest : rest = rest.take k ++ find ++ s := by
      rw [List.append_assoc, hs, List.take_append_drop]
    have hu : (rest.take k).length = k := by
      rw [List.length_take]
      omega
    refine ⟨rest.take k, s, hrest, by rw [hu], ?_⟩
    rw [← hrest, hu]
    intro j hj hprefix
    have hno := hbefore j hj
    rw [List.isPrefixOf_iff_prefix.mpr hprefix] at hno
    cases hno

theorem findString_none {find front rest : List UInt8}
    (h : findString find (front ++ rest) front.length = none) : ¬find <:+: rest := by
  rintro ⟨u, v, rfl⟩
  rw [findString, searchFrom] at h
  split at h
  · next hlt =>
    simp at hlt
  · rw [List.drop_left] at h
    have hno := search_none (Option.map_eq_none_iff.mp h) u.length (by simp)
    rw [List.append_assoc, List.drop_left,
      List.isPrefixOf_iff_prefix.mpr (List.prefix_append find v)] at hno
    cases hno

theorem replaceLoop_none (findFrom : List UInt8 → Nat → Option Nat) (width : Nat)
    (replaceWith : List UInt8) (rounds : Nat) (str : List UInt8) :
    replaceLoop findFrom width replaceWith rounds str none = some str := by
  cases rounds <;> rfl

/-- Every round takes what it looks for off the rest: there are rounds enough, whatever was put in,
and the rest is substituted. -/
theorem replaceLoop_substituted {find : List UInt8} (hne : find ≠ []) (replaceWith : List UInt8)
    (rounds : Nat) (front rest : List UInt8) (hrounds : rest.length ≤ rounds) :
    ∃ t, replaceLoop (findString find) find.length replaceWith rounds (front ++ rest)
        (findString find (front ++ rest) front.length) = some (front ++ t) ∧
      Substituted find replaceWith rest t := by
  have hpos := List.length_pos_iff.mpr hne
  induction rounds generalizing front rest with
  | zero =>
    cases hfind : findString find (front ++ rest) front.length with
    | none => exact ⟨rest, replaceLoop_none _ _ _ _ _, .free (findString_none hfind)⟩
    | some pos =>
      obtain ⟨u, s, rfl, -, -⟩ := findString_some hfind
      simp only [List.length_append] at hrounds
      omega
  | succ rounds ih =>
    cases hfind : findString find (front ++ rest) front.length with
    | none => exact ⟨rest, replaceLoop_none _ _ _ _ _, .free (findString_none hfind)⟩
    | some pos =>
      obtain ⟨u, s, rfl, rfl, hfirst⟩ := findString_some hfind
      simp only [List.length_append] at hrounds
      obtain ⟨t, hloop, hsubst⟩ := ih (front ++ u ++ replaceWith) s (by omega)
      have hfront : (front ++ (u ++ find ++ s)).take (front.length + u.length) = front ++ u := by
        have hsame : front ++ (u ++ find ++ s) = (front ++ u) ++ (find ++ s) := by simp
        rw [hsame, ← List.length_append, List.take_left]
      have hrest : (front ++ (u ++ find ++ s)).drop (front.length + u.length + find.length) = s := by
        have hsame : front ++ (u ++ find ++ s) = (front ++ u ++ find) ++ s := by simp
        rw [hsame, ← List.length_append, ← List.length_append, List.drop_left]
      refine ⟨u ++ replaceWith ++ t, ?_, .occurs hfirst hsubst⟩
      simp only [replaceLoop, hfront, hrest]
      rw [List.length_append, List.length_append] at hloop
      rw [hloop]
      simp

theorem findString_lt {find : List UInt8} (hne : find ≠ []) {str : List UInt8} {pos index : Nat}
    (h : findString find str pos = some index) : index < str.length := by
  have hlength := List.length_pos_iff.mpr hne
  have hle : pos ≤ str.length := by
    rw [findString, searchFrom] at h
    split at h
    · cases h
    · omega
  have htake : (str.take pos).length = pos := by
    rw [List.length_take]
    omega
  rw [← List.take_append_drop pos str] at h ⊢
  have hfind : findString find (str.take pos ++ str.drop pos) (str.take pos).length =
      some index := by
    rwa [htake]
  obtain ⟨u, s, hs, hindex, -⟩ := findString_some hfind
  rw [hs, htake] at *
  simp
  omega

/-- A character put in place is the string of this character put in. -/
theorem replaceCharLoop_eq (find replaceWith : UInt8) (rounds : Nat) (str : List UInt8)
    (index : Option Nat) (hindex : ∀ i ∈ index, i < str.length) :
    replaceCharLoop find replaceWith rounds str index =
      replaceLoop (findString [find]) 1 [replaceWith] rounds str index := by
  induction rounds generalizing str index with
  | zero => cases index <;> rfl
  | succ rounds ih =>
    cases index with
    | none => rfl
    | some i =>
      have hi := hindex i rfl
      have hset : str.set i replaceWith = str.take i ++ [replaceWith] ++ str.drop (i + 1) := by
        rw [List.set_eq_take_append_cons_drop, if_pos hi]
        simp
      simp only [replaceCharLoop, replaceLoop, hset, findChar_eq]
      exact ih _ _ fun j hj => findString_lt (by simp) hj

/-- With nothing to look for, every round finds it again, behind what it has just put in. -/
theorem replaceString_empty (rounds : Nat) (str replaceWith : List UInt8) :
    replaceString rounds str [] replaceWith = none := by
  have hfind (s : List UInt8) {pos : Nat} (hpos : pos ≤ s.length) :
      findString [] s pos = some pos := by
    have hsearch (t : List UInt8) : search (([] : List UInt8).isPrefixOf ·) t = some 0 := by
      cases t <;> rfl
    rw [findString, searchFrom, if_neg (by omega), hsearch]
    rfl
  have hloop (rounds : Nat) : ∀ (s : List UInt8) {pos : Nat}, pos ≤ s.length →
      replaceLoop (findString []) 0 replaceWith rounds s (some pos) = none := by
    induction rounds with
    | zero =>
      intro s pos _
      rfl
    | succ rounds ih =>
      intro s pos hpos
      rw [replaceLoop, hfind _ (by simp; omega)]
      exact ih _ (by simp; omega)
  rw [replaceString, hfind str (by omega)]
  exact hloop rounds str (by omega)

/-- A call that comes to an end with the substitution, the only one there is. -/
def Replaces (run : Nat → Option (List UInt8)) (str find replaceWith : List UInt8) : Prop :=
  ∃ rounds t, run rounds = some t ∧ Substituted find replaceWith str t ∧
    ∀ t', Substituted find replaceWith str t' → t' = t

theorem replaceString_replaces (str : List UInt8) {find : List UInt8} (hne : find ≠ [])
    (replaceWith : List UInt8) :
    Replaces (replaceString · str find replaceWith) str find replaceWith := by
  obtain ⟨t, hrun, hsubst⟩ := replaceLoop_substituted hne replaceWith str.length [] str (by omega)
  exact ⟨str.length, t, hrun, hsubst, fun t' => hsubst.unique⟩

theorem replaceCharBy_eq (rounds : Nat) (str : List UInt8) (find : UInt8)
    (replaceWith : List UInt8) :
    replaceCharBy rounds str find replaceWith = replaceString rounds str [find] replaceWith := by
  rw [replaceCharBy, findChar_eq]
  rfl

theorem replaceChar_eq (rounds : Nat) (str : List UInt8) (find replaceWith : UInt8) :
    replaceChar rounds str find replaceWith = replaceString rounds str [find] [replaceWith] := by
  rw [replaceChar, findChar_eq,
    replaceCharLoop_eq _ _ _ _ _ fun i hi => findString_lt (by simp) hi]
  rfl

/-- Both overloads that look for a character end with the substitution; the one that looks for a
string comes to an end if and only if there is something to look for, and then does so as well. -/
theorem replace_substitutes (str : List UInt8) (find replaceWith : UInt8)
    (text replacement : List UInt8) :
    Replaces (replaceChar · str find replaceWith) str [find] [replaceWith] ∧
      Replaces (replaceCharBy · str find replacement) str [find] replacement ∧
      ((∃ rounds t, replaceString rounds str text replacement = some t) ↔ text ≠ []) ∧
      (text ≠ [] → Replaces (replaceString · str text replacement) str text replacement) := by
  refine ⟨?_, ?_, ⟨?_, ?_⟩, fun hne => replaceString_replaces str hne replacement⟩
  · simp only [replaceChar_eq]
    exact replaceString_replaces str (by simp) [replaceWith]
  · simp only [replaceCharBy_eq]
    exact replaceString_replaces str (by simp) replacement
  · rintro ⟨rounds, t, hrun⟩ rfl
    rw [replaceString_empty] at hrun
    cases hrun
  · intro hne
    obtain ⟨rounds, t, hrun, -⟩ := replaceString_replaces str hne replacement
    exact ⟨rounds, t, hrun⟩

/-- `replace("ab", "", "-")` never returns. -/
theorem replaceString_nothing : ¬∃ rounds t, replaceString rounds [97, 98] [] [45] = some t := by
  rintro ⟨rounds, t, hrun⟩
  rw [replaceString_empty] at hrun
  cases hrun

end CxkFramework.StringUtil
