import CxkFramework.UriParts

/-!
# The grammar of URIs

URIs with an authority as RFC 3986 has them, independent of the machine: the parts of one carry
that they are spelled by the grammar, and `text` puts them together.
-/

namespace CxkFramework.Uri.Grammar

/-! ## Characters -/

def digit : List UInt8 := chars "0123456789"

def alpha : List UInt8 := chars "abcdefghijklmnopqrstuvwxyzABCDEFGHIJKLMNOPQRSTUVWXYZ"

def hexdig : List UInt8 := digit ++ chars "abcdefABCDEF"

def unreserved : List UInt8 := alpha ++ digit ++ chars "-._~"

def subDelims : List UInt8 := chars "!$&'()*+,;="

def regNameChars : List UInt8 := unreserved ++ subDelims

def userinfoChars : List UInt8 := 58 :: regNameChars

def pchar : List UInt8 := regNameChars ++ chars ":@"

def queryChars : List UInt8 := pchar ++ chars "/?"

/-- Characters of a class and bytes that are percent-encoded. -/
inductive Encoded (C : List UInt8) : List UInt8 → Prop where
  | nil : Encoded C []
  | char {b : UInt8} {u : List UInt8} (hb : b ∈ C) (hu : Encoded C u) : Encoded C (b :: u)
  | pct {h l : UInt8} {u : List UInt8} (hh : h ∈ hexdig) (hl : l ∈ hexdig) (hu : Encoded C u) :
      Encoded C (37 :: h :: l :: u)

/-- One character from each class. -/
def Spells (u : List UInt8) (Cs : List (List UInt8)) : Prop := List.Forall₂ (· ∈ ·) u Cs

/-! ## Hosts -/

/-- The alternatives of `dec-octet` but for the one below. -/
def decOctet : List (List (List UInt8)) :=
  [[digit], [chars "123456789", digit], [chars "1", digit, digit],
    [chars "2", chars "5", chars "012345"]]

/-- The alternative for 200 to 249. -/
def twoHundreds : List (List UInt8) := [chars "2", chars "01234", digit]

structure DecOctet where
  word : List UInt8
  spelled : ∃ Cs ∈ twoHundreds :: decOctet, Spells word Cs

structure H16 where
  word : List UInt8
  nonempty : word ≠ []
  short : word.length ≤ 4
  hex : ∀ b ∈ word, b ∈ hexdig

structure IPv4Address where
  first : DecOctet
  second : DecOctet
  third : DecOctet
  fourth : DecOctet

namespace IPv4Address

def octets (a : IPv4Address) : List DecOctet := [a.first, a.second, a.third, a.fourth]

def text (a : IPv4Address) : List UInt8 :=
  a.first.word ++ 46 :: (a.second.word ++ 46 :: (a.third.word ++ 46 :: a.fourth.word))

end IPv4Address

/-- What is left of an IPv6 address: groups, and an IPv4 address in the place of the last two. -/
structure Pieces where
  groups : List H16
  address : Option IPv4Address

namespace Pieces

def width (a : Pieces) : Nat := a.groups.length + if a.address.isSome then 2 else 0

def text (a : Pieces) : List UInt8 :=
  [58].intercalate (a.groups.map H16.word ++ (a.address.map IPv4Address.text).toList)

/-- Groups with a colon behind each of them. -/
def closed (gs : List H16) : List UInt8 := gs.flatMap fun g => g.word ++ [58]

theorem intercalate_concat (gs : List H16) (u : List UInt8) :
    [58].intercalate (gs.map H16.word ++ [u]) = closed gs ++ u := by
  induction gs with
  | nil => simp [closed]
  | cons g gs ih =>
    rw [List.map_cons, List.cons_append, List.intercalate_cons_of_ne_nil (by simp), ih]
    simp [closed]

theorem text_of_groups (gs : List H16) (g : H16) :
    text ⟨gs ++ [g], none⟩ = closed gs ++ g.word := by
  simp [text, ← intercalate_concat]

theorem text_of_address (gs : List H16) (a : IPv4Address) :
    text ⟨gs, some a⟩ = closed gs ++ a.text := by
  simp [text, ← intercalate_concat]

end Pieces

/-- An IPv6 address, with the groups before `::` where that stands for the missing ones. -/
structure IPv6Address where
  before : Option (List H16)
  pieces : Pieces
  full : before = none → pieces.width = 8
  elided : ∀ gs ∈ before, gs.length + pieces.width ≤ 7

namespace IPv6Address

def text (a : IPv6Address) : List UInt8 :=
  match a.before with
  | none => a.pieces.text
  | some gs => [58].intercalate (gs.map H16.word) ++ 58 :: 58 :: a.pieces.text

end IPv6Address

/-- The letter is `v` or `V`, as literals of the grammar are. -/
structure IPvFuture where
  letter : UInt8
  version : List UInt8
  address : List UInt8
  isLetter : letter ∈ chars "vV"
  isVersion : version ≠ [] ∧ ∀ b ∈ version, b ∈ hexdig
  isAddress : address ≠ [] ∧ ∀ b ∈ address, b ∈ userinfoChars

namespace IPvFuture

def text (a : IPvFuture) : List UInt8 := a.letter :: (a.version ++ 46 :: a.address)

end IPvFuture

inductive Host where
  | ipv6 (a : IPv6Address)
  | ipvFuture (a : IPvFuture)
  | ipv4 (a : IPv4Address)
  | regName (name : List UInt8) (h : Encoded regNameChars name)

namespace Host

def text : Host → List UInt8
  | ipv6 a => 91 :: (a.text ++ [93])
  | ipvFuture a => 91 :: (a.text ++ [93])
  | ipv4 a => a.text
  | regName name _ => name

end Host

end CxkFramework.Uri.Grammar

namespace CxkFramework.Uri

open Grammar

/-- A URI with an authority, part by part. -/
structure Components where
  scheme : List UInt8
  userinfo : Option (List UInt8)
  host : Host
  port : Option (List UInt8)
  segments : List (List UInt8)
  query : Option (List UInt8)
  fragment : Option (List UInt8)
  isScheme : ∃ b u, scheme = b :: u ∧ b ∈ alpha ∧ ∀ c ∈ u, c ∈ alpha ++ digit ++ chars "+-."
  isUserinfo : ∀ u ∈ userinfo, Encoded userinfoChars u
  isPort : ∀ u ∈ port, (∀ b ∈ u, b ∈ digit) ∧ number u < 2 ^ 31
  isPath : ∀ u ∈ segments, Encoded pchar u
  isQuery : ∀ u ∈ query, Encoded queryChars u
  isFragment : ∀ u ∈ fragment, Encoded queryChars u

namespace Components

variable (c : Components)

def path : List UInt8 := c.segments.flatMap (47 :: ·)

def authority : List UInt8 :=
  (match c.userinfo with
    | none => []
    | some u => u ++ [64]) ++ c.host.text ++ delimited 58 c.port

def text : List UInt8 :=
  c.scheme ++ chars "://" ++ c.authority ++ c.path ++ delimited 63 c.query ++
    delimited 35 c.fragment

/-- The port that goes with the scheme. -/
def schemePort : Nat :=
  if c.scheme ∈ [chars "http", chars "ws"] then 80
  else if c.scheme ∈ [chars "https", chars "wss"] then 443
  else 0

/-- The number of the port, or what stands for none and for zero. -/
def portNumber : Nat :=
  match number (c.port.getD []) with
  | 0 => c.schemePort
  | n => n

/-- The getters return the components. -/
structure ReadBy (u : Uri) : Prop where
  scheme : u.scheme = c.scheme
  userinfo : u.userinfo = c.userinfo.getD []
  host : u.host = c.host.text
  port : u.getPort.toInt = c.portNumber
  path : u.getPath = if c.path = [] then chars "/" else c.path
  query : u.query = c.query.getD []
  fragment : u.fragment = c.fragment.getD []

end Components

end CxkFramework.Uri
