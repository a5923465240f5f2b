import CxkFramework.HttpRequestText
import CxkFramework.ScannerWords
import CxkFramework.UriTable

/-!
# URIs

`Uri::Create` over the table of `uri.rl`, the getters and `toString`. A position in the text stands
for a pointer into it and `none` for `NULL`.
-/

namespace CxkFramework

open Scanner

/-- The getters without a definition below return the fields. -/
structure Uri where
  scheme : List UInt8
  userinfo : List UInt8
  host : List UInt8
  port : UInt32
  path : List UInt8
  query : List UInt8
  fragment : List UInt8
  deriving DecidableEq, Repr

namespace Uri

def init : Uri where
  scheme := []
  userinfo := []
  host := []
  port := 0
  path := []
  query := []
  fragment := []

/-! ## The getters and the printer -/

def isDefaultPort (u : Uri) : Bool :=
  if u.port = 0 then true
  else if u.scheme = chars "http" ∨ u.scheme = chars "ws" then u.port = 80
  else if u.scheme = chars "https" ∨ u.scheme = chars "wss" then u.port = 443
  else false

def getPath (u : Uri) : List UInt8 := if u.path = [] then chars "/" else u.path

def getPort (u : Uri) : Int32 :=
  if u.port ≠ 0 then u.port.toInt32
  else if u.scheme = chars "http" ∨ u.scheme = chars "ws" then 80
  else if u.scheme = chars "https" ∨ u.scheme = chars "wss" then 443
  else u.port.toInt32

/-- `dump` into an empty stream. -/
def toString (u : Uri) : List UInt8 :=
  u.scheme ++ chars "://" ++ u.userinfo ++ (if u.userinfo = [] then [] else chars "@") ++ u.host
    ++ (if u.isDefaultPort then [] else chars ":" ++ decimal u.port.toNat) ++ u.getPath
    ++ (if u.query = [] then [] else chars "?") ++ u.query
    ++ (if u.fragment = [] then [] else chars "#") ++ u.fragment

/-! ## The parser -/

/-- `NULL` is read: `std::string` throws, and `atoi` ends the process. -/
inductive Fault where
  | null
  deriving DecidableEq, Repr

def isDigit (b : UInt8) : Bool := 48 ≤ b && b ≤ 57

/-- The value of decimal digits. -/
def number (digits : List UInt8) : Nat := digits.foldl (fun n b => 10 * n + (b.toNat - 48)) 0

/-- `strtol` to the base of 10, which stops at the ends of `long`. -/
def strtol (s : List UInt8) : Int :=
  let value : Int :=
    match s.dropWhile fun b => b == 32 || (9 ≤ b && b ≤ 13) with
    | 45 :: s => -number (s.takeWhile isDigit)
    | 43 :: s => number (s.takeWhile isDigit)
    | s => number (s.takeWhile isDigit)
  max (-9223372036854775808) (min value 9223372036854775807)

theorem isDigit_decimal {n : Nat} {b : UInt8} (h : b ∈ decimal n) : isDigit b = true :=
  of_mem_decimal (P := fun b => isDigit b = true) (by decide) h

theorem number_decimal (n : Nat) : number (decimal n) = n := by
  have hchars : ∀ (l : List Char) (k : Nat), (∀ c ∈ l, c.isDigit = true) →
      (l.map fun c => UInt8.ofNat c.toNat).foldl (fun n b => 10 * n + (b.toNat - 48)) k =
        Nat.ofDigitChars 10 l k := by
    intro l
    induction l with
    | nil => intro k _; rfl
    | cons c l ih =>
      intro k hl
      have hc : 48 ≤ c.toNat ∧ c.toNat ≤ 57 := by
        simpa [Char.isDigit, UInt32.le_iff_toNat_le] using hl c List.mem_cons_self
      have hbyte : (UInt8.ofNat c.toNat).toNat = c.toNat := by
        rw [UInt8.toNat_ofNat', Nat.mod_eq_of_lt (by omega)]
      rw [List.map_cons, List.foldl_cons, hbyte, ih _ fun c' hc' => hl c' (by simp [hc'])]
      rfl
  rw [number, decimal, hchars _ _ fun c hc => Nat.isDigit_of_mem_toDigits (by decide) (by decide) hc]
  exact Nat.ofDigitChars_toDigits (by decide) (by decide)

/-- It stops behind the digits. -/
theorem strtol_digits {digits v : List UInt8} (hne : digits ≠ []) (hall : ∀ b ∈ digits, isDigit b = true)
    (hv : ∀ b ∈ v.head?, isDigit b = false) :
    strtol (digits ++ v) = min (number digits : Int) 9223372036854775807 := by
  have htake : (digits ++ v).takeWhile isDigit = digits := by
    have hnone : v.takeWhile isDigit = [] := by
      cases v with
      | nil => rfl
      | cons b v => rw [List.takeWhile_cons, hv b rfl]; rfl
    rw [List.takeWhile_append_of_pos hall, hnone, List.append_nil]
  obtain ⟨b, w, rfl⟩ := List.exists_cons_of_ne_nil hne
  have hb := hall b List.mem_cons_self
  have hspace : (b == 32 || (9 ≤ b && b ≤ 13)) = false := by
    revert hb
    simp only [isDigit, Bool.and_eq_true, decide_eq_true_eq, UInt8.le_iff_toNat_le,
      Bool.or_eq_false_iff, beq_eq_false_iff_ne, ne_eq, ← UInt8.toNat_inj,
      Bool.and_eq_false_imp, decide_eq_false_iff_not, not_le]
    intro hb
    have h48 : (48 : UInt8).toNat = 48 := rfl
    have h32 : (32 : UInt8).toNat = 32 := rfl
    have h13 : (13 : UInt8).toNat = 13 := rfl
    omega
  have hdrop : (b :: w ++ v).dropWhile (fun b => b == 32 || (9 ≤ b && b ≤ 13)) = b :: w ++ v := by
    rw [List.cons_append, List.dropWhile_cons, hspace]
    rfl
  have hminus : b ≠ 45 := by
    rintro rfl
    cases hb
  have hplus : b ≠ 43 := by
    rintro rfl
    cases hb
  rw [strtol, hdrop]
  split
  · rename_i heq
    exact absurd (List.cons.inj heq).1 hminus
  · rename_i heq
    exact absurd (List.cons.inj heq).1 hplus
  · rw [htake]
    omega

/-- `atoi`: `strtol` cut to an `int`. -/
def atoi (s : List UInt8) : Int := (strtol s).bmod (2 ^ 32)

/-- The local variables of `Create`. -/
structure Parse where
  mark : Option Nat
  uri : Uri
  deriving DecidableEq, Repr

/-- `std::string(mark, fpc - mark)`. -/
def cut (text : List UInt8) (mark : Option Nat) (p : Nat) : Except Fault (List UInt8) :=
  match mark with
  | none => .error .null
  | some m => .ok ((text.drop m).take (p - m))

/-- The actions of `uri.rl` with `fpc` at `p`. -/
def act (text : List UInt8) (p : Nat) : Action → Parse → Except Fault Parse
  | .mark, d => .ok { d with mark := some p }
  | .saveScheme, d => do
    let scheme ← cut text d.mark p
    .ok ⟨none, { d.uri with scheme := scheme }⟩
  | .savePort, d =>
    if d.mark = some p then .ok ⟨none, d.uri⟩
    else
      match d.mark with
      | none => .error .null
      | some m => .ok ⟨none, { d.uri with port := UInt32.ofInt (atoi (text.drop m)) }⟩
  | .saveUserinfo, d =>
    if d.mark = none then .ok ⟨none, d.uri⟩
    else do
      let userinfo ← cut text d.mark p
      .ok ⟨none, { d.uri with userinfo := userinfo }⟩
  | .saveHost, d =>
    if d.mark = none then .ok d
    else do
      let host ← cut text d.mark p
      .ok { d with uri := { d.uri with host := host } }
  | .savePath, d => do
    let path ← cut text d.mark p
    .ok ⟨none, { d.uri with path := path }⟩
  | .saveQuery, d => do
    let query ← cut text d.mark p
    .ok ⟨none, { d.uri with query := query }⟩
  | .saveFragment, d => do
    let fragment ← cut text d.mark p
    .ok ⟨none, { d.uri with fragment := fragment }⟩

def machine : Machine Nat Action := ofBlocks 20 table fun _ => false

/-- Checks of the table compare transitions. -/
instance : DecidableEq (Option (Nat × List Action)) := inferInstance

/-- What `Create` makes of the run: the actions at the end of the text, and the state. -/
def finish (text : List UInt8) : Verdict Nat × Nat × Parse → Except Fault (Option Uri)
  | (.running cs, p, d) =>
    match performAll (act text p) (eofActions cs) d with
    | .error e => .error e
    | .ok d => .ok (if firstFinal ≤ cs then some d.uri else none)
  | _ => .ok none

/-- The rest of `Create` from a state and a position on. -/
def scan (text : List UInt8) (cs p : Nat) (bs : List UInt8) (d : Parse) :
    Except Fault (Option Uri) :=
  match machine.exec (act text) cs p bs d with
  | .error e => .error e
  | .ok r => finish text r

/-- `Create`; `none` is `nullptr`. -/
def create (text : List UInt8) : Except Fault (Option Uri) := scan text start 0 text ⟨none, init⟩

end Uri

end CxkFramework
