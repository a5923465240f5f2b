import CxkFramework.Uri

/-!
# Integers in JSON

`JsonUtil::GetInt32`, `GetUint32`, `GetInt64` and `GetUint64` over what jsoncpp offers, with a member
that is a number or a string with its digits.
-/

namespace CxkFramework.JsonIntegers

open Uri

/-- What is used of `Json::Value`. -/
structure JsonCpp (V : Type*) where
  isMember : V → List UInt8 → Bool
  /-- `json[name]` -/
  member : V → List UInt8 → V
  isInt : V → Bool
  isUInt : V → Bool
  isInt64 : V → Bool
  isUInt64 : V → Bool
  isString : V → Bool
  asInt : V → Int32
  asUInt : V → UInt32
  asInt64 : V → Int64
  asUInt64 : V → UInt64
  asString : V → List UInt8

/-! ## The getters -/

/-- `TypeUtil::Atoi`. `strtoll` is `strtol` here, where both are of 64 bits. -/
def Atoi (str : List UInt8) : Int := if str = [] then 0 else Uri.strtol str

section

variable {V α : Type*} (api : JsonCpp V)

/-- The body of the four getters. -/
def getInteger (test : V → Bool) (as : V → α) (narrow : Int → α) (json : V) (name : List UInt8)
    (defaultValue : α) : α :=
  if api.isMember json name = false then defaultValue
  else
    let v := api.member json name
    if test v = true then as v
    else if api.isString v = true then narrow (Atoi (api.asString v))
    else defaultValue

def getInt32 : V → List UInt8 → Int32 → Int32 := getInteger api api.isInt api.asInt .ofInt

def getUint32 : V → List UInt8 → UInt32 → UInt32 := getInteger api api.isUInt api.asUInt .ofInt

def getInt64 : V → List UInt8 → Int64 → Int64 := getInteger api api.isInt64 api.asInt64 .ofInt

def getUint64 : V → List UInt8 → UInt64 → UInt64 :=
  getInteger api api.isUInt64 api.asUInt64 .ofInt

end

/-- The decimal digits of a number, behind its sign. -/
def text (n : Int) : List UInt8 := if n < 0 then 45 :: decimal n.natAbs else decimal n.natAbs

/-- A test is one of the range of its type, and `as` the number in it. -/
structure RangeTest {V α : Type*} (IsNumber : V → Int → Prop) (IsString : V → List UInt8 → Prop)
    (test : V → Bool) (as : V → α) (value : α → Int) (low high : Int) : Prop where
  number_iff : ∀ {v n}, IsNumber v n → (test v = true ↔ low ≤ n ∧ n < high)
  number_eq : ∀ {v n}, IsNumber v n → test v = true → value (as v) = n
  not_string : ∀ {v s}, IsString v s → test v = false

/-- jsoncpp, with what its values are. -/
structure Documented {V : Type*} (api : JsonCpp V) (IsNumber : V → Int → Prop)
    (IsString : V → List UInt8 → Prop) : Prop where
  int : RangeTest IsNumber IsString api.isInt api.asInt Int32.toInt (-2 ^ 31) (2 ^ 31)
  uint : RangeTest IsNumber IsString api.isUInt api.asUInt (fun v => v.toNat) 0 (2 ^ 32)
  int64 : RangeTest IsNumber IsString api.isInt64 api.asInt64 Int64.toInt (-2 ^ 63) (2 ^ 63)
  uint64 : RangeTest IsNumber IsString api.isUInt64 api.asUInt64 (fun v => v.toNat) 0 (2 ^ 64)
  string : ∀ {v s}, IsString v s → api.isString v = true ∧ api.asString v = s

/-! ## The text of a number -/

theorem strtol_decimal (n : Nat) : Uri.strtol (decimal n) = min (n : Int) 9223372036854775807 := by
  have hdigits := strtol_digits (v := []) (decimal_ne_nil n) (fun _ => isDigit_decimal) (by simp)
  rwa [List.append_nil, number_decimal] at hdigits

theorem strtol_negative (n : Nat) :
    Uri.strtol (45 :: decimal n) = max (-9223372036854775808) (-(n : Int)) := by
  have hall : (decimal n).takeWhile Uri.isDigit = decimal n := by
    rw [List.takeWhile_eq_self_iff]
    exact fun _ => isDigit_decimal
  have hdrop : (45 :: decimal n).dropWhile (fun b => b == 32 || (9 ≤ b && b ≤ 13)) =
      45 :: decimal n := rfl
  rw [Uri.strtol, hdrop]
  simp only [hall, number_decimal]
  omega

theorem text_ne_nil (n : Int) : text n ≠ [] := by
  rw [text]
  split
  · exact List.cons_ne_nil _ _
  · exact decimal_ne_nil _

/-- The text is read with the ends of 64 bits. -/
theorem atoi_text (n : Int) :
    Atoi (text n) = max (-9223372036854775808) (min n 9223372036854775807) := by
  rw [Atoi, if_neg (text_ne_nil n), text]
  split
  · rw [strtol_negative]
    omega
  · rw [strtol_decimal]
    omega

theorem atoi_text_of_lt {n : Int} (hlow : -2 ^ 63 ≤ n) (hhigh : n < 2 ^ 63) : Atoi (text n) = n := by
  rw [atoi_text]
  omega

/-! ## Both kinds of members -/

section

variable {V α : Type*} {api : JsonCpp V} {IsNumber : V → Int → Prop}
  {IsString : V → List UInt8 → Prop}

/-- `json` has the member `v` under `name`. -/
def Holds (api : JsonCpp V) (json : V) (name : List UInt8) (v : V) : Prop :=
  api.isMember json name = true ∧ api.member json name = v

variable {test : V → Bool} {as : V → α} {value : α → Int} {low high n : Int} {json v : V}
  {name : List UInt8}

theorem getInteger_number (h : RangeTest IsNumber IsString test as value low high)
    (hholds : Holds api json name v) (hv : IsNumber v n) (hlow : low ≤ n) (hhigh : n < high)
    (narrow : Int → α) (defaultValue : α) :
    value (getInteger api test as narrow json name defaultValue) = n := by
  obtain ⟨hmember, rfl⟩ := hholds
  have htest := (h.number_iff hv).mpr ⟨hlow, hhigh⟩
  rw [getInteger, if_neg (by simp [hmember])]
  dsimp only
  rw [if_pos htest, h.number_eq hv htest]

theorem getInteger_string (hapi : Documented api IsNumber IsString)
    (h : RangeTest IsNumber IsString test as value low high) (hholds : Holds api json name v)
    {s : List UInt8} (hv : IsString v s) (narrow : Int → α) (defaultValue : α) :
    getInteger api test as narrow json name defaultValue = narrow (Atoi s) := by
  obtain ⟨hmember, rfl⟩ := hholds
  obtain ⟨hstring, hs⟩ := hapi.string hv
  rw [getInteger, if_neg (by simp [hmember])]
  dsimp only
  rw [if_neg (by simp [h.not_string hv]), if_pos hstring, hs]

end

section

variable {V : Type*} {api : JsonCpp V} {IsNumber : V → Int → Prop}
  {IsString : V → List UInt8 → Prop}

/-- For a number in the range of its type a getter returns the number, and the same for its digits;
`GetUint64` does if and only if the number is below `2 ^ 63`. -/
theorem integers_read_iff (h : Documented api IsNumber IsString) {json json' v v' : V}
    {name name' : List UInt8} {n : Int} (hv : Holds api json name v) (hnumber : IsNumber v n)
    (hv' : Holds api json' name' v') (hstring : IsString v' (text n)) :
    (∀ d, -2 ^ 31 ≤ n → n < 2 ^ 31 →
        (getInt32 api json name d).toInt = n ∧ (getInt32 api json' name' d).toInt = n) ∧
      (∀ d, 0 ≤ n → n < 2 ^ 32 →
        ((getUint32 api json name d).toNat : Int) = n ∧
          ((getUint32 api json' name' d).toNat : Int) = n) ∧
      (∀ d, -2 ^ 63 ≤ n → n < 2 ^ 63 →
        (getInt64 api json name d).toInt = n ∧ (getInt64 api json' name' d).toInt = n) ∧
      ∀ d, 0 ≤ n → n < 2 ^ 64 →
        (((getUint64 api json name d).toNat : Int) = n ∧
          ((getUint64 api json' name' d).toNat : Int) = n ↔ n < 2 ^ 63) := by
  refine ⟨fun d hlow hhigh => ⟨getInteger_number h.int hv hnumber hlow hhigh _ d, ?_⟩,
    fun d hlow hhigh => ⟨getInteger_number h.uint hv hnumber hlow hhigh _ d, ?_⟩,
    fun d hlow hhigh => ⟨getInteger_number h.int64 hv hnumber hlow hhigh _ d, ?_⟩,
    fun d hlow hhigh => ?_⟩
  · rw [getInt32, getInteger_string h h.int hv' hstring, atoi_text_of_lt (by omega) (by omega),
      Int32.toInt_ofInt]
    exact Int.bmod_eq_of_le (by simpa using hlow) (by simpa using hhigh)
  · rw [getUint32, getInteger_string h h.uint hv' hstring, atoi_text_of_lt (by omega) (by omega),
      UInt32.ofInt, UInt32.toNat_ofNat']
    omega
  · rw [getInt64, getInteger_string h h.int64 hv' hstring, atoi_text_of_lt hlow hhigh,
      Int64.toInt_ofInt]
    exact Int.bmod_eq_of_le (by simpa using hlow) (by simpa using hhigh)
  · have hfirst := getInteger_number h.uint64 hv hnumber hlow hhigh .ofInt d
    have htext : ((getUint64 api json' name' d).toNat : Int) = min n 9223372036854775807 := by
      rw [getUint64, getInteger_string h h.uint64 hv' hstring, atoi_text, UInt64.ofInt,
        UInt64.toNat_ofNat']
      omega
    rw [htext]
    constructor
    · intro hboth
      omega
    · intro hlt
      exact ⟨hfirst, by omega⟩

end

/-! ## Values -/

inductive Json where
  | number (n : Int)
  | string (s : List UInt8)
  /-- an object with one member -/
  | object (name : List UInt8) (member : Json)

namespace Json

def isMember : Json → List UInt8 → Bool
  | object name _, name' => name == name'
  | _, _ => false

def get : Json → List UInt8 → Json
  | object _ member, _ => member
  | v, _ => v

def toInt : Json → Int
  | number n => n
  | _ => 0

def isString : Json → Bool
  | string _ => true
  | _ => false

def asString : Json → List UInt8
  | string s => s
  | _ => []

def inRange (low high : Int) : Json → Bool
  | number n => decide (low ≤ n ∧ n < high)
  | _ => false

def api : JsonCpp Json where
  isMember := isMember
  member := get
  isInt := inRange (-2 ^ 31) (2 ^ 31)
  isUInt := inRange 0 (2 ^ 32)
  isInt64 := inRange (-2 ^ 63) (2 ^ 63)
  isUInt64 := inRange 0 (2 ^ 64)
  isString := isString
  asInt v := .ofInt v.toInt
  asUInt v := .ofInt v.toInt
  asInt64 v := .ofInt v.toInt
  asUInt64 v := .ofInt v.toInt
  asString := asString

theorem rangeTest {α : Type} {value : α → Int} {as : Json → α} {low high : Int}
    (has : ∀ n, low ≤ n → n < high → value (as (number n)) = n) :
    RangeTest (fun v n => v = number n) (fun v s => v = string s) (inRange low high) as value low
      high where
  number_iff h := by
    rw [h, inRange, decide_eq_true_eq]
  number_eq h htest := by
    rw [h, inRange, decide_eq_true_eq] at htest
    rw [h]
    exact has _ htest.1 htest.2
  not_string h := by
    rw [h]
    rfl

theorem documented_api :
    Documented api (fun v n => v = number n) fun v s => v = string s where
  int := rangeTest fun n hlow hhigh => by
    show (Int32.ofInt n).toInt = n
    rw [Int32.toInt_ofInt]
    exact Int.bmod_eq_of_le (by simpa using hlow) (by simpa using hhigh)
  uint := rangeTest fun n hlow hhigh => by
    show ((UInt32.ofInt n).toNat : Int) = n
    rw [UInt32.ofInt, UInt32.toNat_ofNat']
    omega
  int64 := rangeTest fun n hlow hhigh => by
    show (Int64.ofInt n).toInt = n
    rw [Int64.toInt_ofInt]
    exact Int.bmod_eq_of_le (by simpa using hlow) (by simpa using hhigh)
  uint64 := rangeTest fun n hlow hhigh => by
    show ((UInt64.ofInt n).toNat : Int) = n
    rw [UInt64.ofInt, UInt64.toNat_ofNat']
    omega
  string h := by
    rw [h]
    exact ⟨rfl, rfl⟩

end Json

/-- `2 ^ 63` as a number and as a string. -/
theorem getUint64_saturates :
    text (2 ^ 63) = chars "9223372036854775808" ∧
      getUint64 Json.api (.object (chars "a") (.number (2 ^ 63))) (chars "a") 0 =
        9223372036854775808 ∧
      getUint64 Json.api (.object (chars "a") (.string (chars "9223372036854775808")))
        (chars "a") 0 = 9223372036854775807 := by
  decide

theorem integers_read_iff_seven :
    (getInt32 Json.api (.object [97] (.number 7)) [97] 0).toInt = 7 ∧
      (getInt32 Json.api (.object [97] (.string (text 7))) [97] 0).toInt = 7 ∧
      ((getUint64 Json.api (.object [97] (.string (text 7))) [97] 0).toNat : Int) = 7 := by
  have hnumber : Holds Json.api (.object [97] (.number 7)) [97] (.number 7) := ⟨rfl, rfl⟩
  have htext : Holds Json.api (.object [97] (.string (text 7))) [97] (.string (text 7)) :=
    ⟨rfl, rfl⟩
  obtain ⟨hint, -, -, huint⟩ := integers_read_iff Json.documented_api hnumber rfl htext rfl
  have hseven := hint 0 (by decide) (by decide)
  have hsmall := (huint 0 (by decide) (by decide)).mpr (by decide)
  exact ⟨hseven.1, hseven.2, hsmall.2⟩

end CxkFramework.JsonIntegers
