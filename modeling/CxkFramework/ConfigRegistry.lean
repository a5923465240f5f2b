import CxkFramework.OrderedMap
import CxkFramework.Runs
import Mathlib.Data.Char
import Mathlib.Data.List.Lex
import Mathlib.Logic.Function.Basic

/-!
# The registry of configuration variables

`Config` with its variables of any types, the walk over a YAML document that gives them their
values, and the load of a directory, which passes over the files that are as it saw them last. A
document is a finite tree: an alias stands for what it refers to.
-/

namespace CxkFramework

namespace Config

/-! ## Documents -/

abbrev Text := List Char

/-- A `YAML::Node`; a key is what `Scalar` says of it. -/
inductive Node where
  | null
  | scalar (text : Text)
  | sequence (items : List Node)
  | map (entries : List (Text × Node))

/-- `find_first_not_of` finds nothing. -/
def valid (name : Text) : Bool :=
  name.all fun c => "abcdefghijklmnopqrstuvwxyz0123456789_.".toList.contains c

/-- The name of a member of a map with this name. -/
def extend (name key : Text) : Text := if name.isEmpty then key else name ++ '.' :: key

mutual

/-- What is put into `output`. -/
def ListAllMember (name : Text) : Node → List (Text × Node)
  | .map entries =>
    if valid name then (name, .map entries) :: memberLoop name entries else []
  | .null => if valid name then [(name, .null)] else []
  | .scalar text => if valid name then [(name, .scalar text)] else []
  | .sequence items => if valid name then [(name, .sequence items)] else []

/-- The loop over the entries. -/
def memberLoop (name : Text) : List (Text × Node) → List (Text × Node)
  | [] => []
  | (key, node) :: entries => ListAllMember (extend name key) node ++ memberLoop name entries

end

mutual

/-- All nodes of a document, each with the keys on the way to it, in the order of the document. -/
def members : Node → List (List Text × Node)
  | .map entries => ([], .map entries) :: membersBelow entries
  | .null => [([], .null)]
  | .scalar text => [([], .scalar text)]
  | .sequence items => [([], .sequence items)]

def membersBelow : List (Text × Node) → List (List Text × Node)
  | [] => []
  | (key, node) :: entries =>
    (members node).map (fun m => (key :: m.1, m.2)) ++ membersBelow entries

end

/-- The keys with dots between them, without the empty keys in front. -/
def joined (keys : List Text) : Text :=
  List.intercalate ['.'] (keys.dropWhile List.isEmpty)

section Walk

variable {name key : Text} {keys : List Text}

theorem valid_append {s t : Text} : valid (s ++ t) = (valid s && valid t) := List.all_append

/-- A name that is not allowed has no member with an allowed one. -/
theorem valid_of_extend (h : valid (extend name key) = true) : valid name = true := by
  rw [extend] at h
  split at h
  · rename_i hempty
    rw [List.isEmpty_iff.mp hempty]
    rfl
  · rw [valid_append, Bool.and_eq_true] at h
    exact h.1

theorem valid_of_foldl (h : valid (keys.foldl extend name) = true) : valid name = true := by
  induction keys generalizing name with
  | nil => exact h
  | cons key keys ih => exact valid_of_extend (ih h)

/-- The names that the walk gives to the members below a name. -/
def named (name : Text) (m : List Text × Node) : Text × Node := (m.1.foldl extend name, m.2)

theorem filter_named (hname : valid name = false) (ms : List (List Text × Node)) :
    (ms.map (named name)).filter (fun m => valid m.1) = [] := by
  refine List.filter_eq_nil_iff.mpr fun m hm hvalid => ?_
  obtain ⟨m', -, rfl⟩ := List.mem_map.mp hm
  exact Bool.eq_false_iff.mp hname (valid_of_foldl hvalid)

theorem filter_walked (name : Text) (node : Node) (ms : List (Text × Node))
    (hms : valid name = false → ms.filter (fun m => valid m.1) = []) :
    (if valid name then (name, node) :: ms.filter fun m => valid m.1 else []) =
      ((name, node) :: ms).filter fun m => valid m.1 := by
  simp only [List.filter_cons]
  cases hname : valid name with
  | true => rfl
  | false => rw [if_neg Bool.false_ne_true, if_neg Bool.false_ne_true, hms hname]

mutual

/-- The walk does not look below a name that is not allowed, and misses nothing by that. -/
theorem ListAllMember_eq (name : Text) (node : Node) :
    ListAllMember name node =
      ((members node).map (named name)).filter fun m => valid m.1 := by
  cases node with
  | map entries =>
    rw [ListAllMember, members, memberLoop_eq, List.map_cons]
    exact filter_walked name (.map entries) ((membersBelow entries).map (named name)) fun h =>
      filter_named h _
  | null => exact filter_walked name .null [] fun _ => rfl
  | scalar text => exact filter_walked name (.scalar text) [] fun _ => rfl
  | sequence items => exact filter_walked name (.sequence items) [] fun _ => rfl

theorem memberLoop_eq (name : Text) (entries : List (Text × Node)) :
    memberLoop name entries =
      ((membersBelow entries).map (named name)).filter fun m => valid m.1 := by
  cases entries with
  | nil => rw [memberLoop, membersBelow, List.map_nil, List.filter_nil]
  | cons e entries =>
    obtain ⟨key, node⟩ := e
    have hkey : ∀ m : List Text × Node, named name (key :: m.1, m.2) = named (extend name key) m :=
      fun m => rfl
    rw [memberLoop, membersBelow, List.map_append, List.map_map, List.filter_append,
      ListAllMember_eq, memberLoop_eq]
    simp only [Function.comp_def, hkey]

end

theorem foldl_extend_of_ne (hne : name ≠ []) :
    keys.foldl extend name = name ++ keys.flatMap fun key => '.' :: key := by
  induction keys generalizing name with
  | nil => rw [List.foldl_nil, List.flatMap_nil, List.append_nil]
  | cons key keys ih =>
    have hext : extend name key = name ++ '.' :: key :=
      if_neg fun h => hne (List.isEmpty_iff.mp h)
    rw [List.foldl_cons, hext, ih (by simp), List.flatMap_cons, List.append_assoc]

theorem intercalate_cons (key : Text) (keys : List Text) :
    List.intercalate ['.'] (key :: keys) = key ++ keys.flatMap fun key => '.' :: key := by
  induction keys generalizing key with
  | nil => simp [List.intercalate]
  | cons key' keys ih =>
    have hstep : List.intercalate ['.'] (key :: key' :: keys) =
        key ++ '.' :: List.intercalate ['.'] (key' :: keys) := by
      simp [List.intercalate]
    rw [hstep, ih, List.flatMap_cons, List.cons_append]

theorem foldl_extend (keys : List Text) : keys.foldl extend [] = joined keys := by
  induction keys with
  | nil => rfl
  | cons key keys ih =>
    have hext : extend [] key = key := rfl
    rw [List.foldl_cons, hext, joined, List.dropWhile_cons]
    split
    · rename_i hempty
      rw [List.isEmpty_iff.mp hempty, ih, joined]
    · rename_i hempty
      have hne : key ≠ [] := fun h => hempty (List.isEmpty_iff.mpr h)
      rw [foldl_extend_of_ne hne, intercalate_cons]

end Walk

/-! ## Variables -/

/-- What the casts of the variables' types and the YAML library do with text. -/
structure Yaml {Ty : Type} (Val : Ty → Type) where
  /-- `FromStr`; nothing when it throws -/
  fromStr : (t : Ty) → Text → Option (Val t)
  /-- `ss << node` -/
  dump : Node → Text

/-- A `ConfigVar<T>`. -/
structure Variable {Ty : Type} (Val : Ty → Type) where
  type : Ty
  value : Val type
  /-- `m_cbs` in the order of the keys; a callback returns or throws -/
  cbs : List (Nat × (Val type → Val type → Bool))

namespace Variable

variable {Ty : Type} {Val : Ty → Type} [∀ t, DecidableEq (Val t)]

/-- The callbacks come before the assignment. The flag says whether the call returns. -/
def setValue (v : Variable Val) (value : Val v.type) : Variable Val × Bool :=
  if v.value = value then (v, true)
  else if v.cbs.all fun cb => cb.2 v.value value then ({ v with value := value }, true)
  else (v, false)

/-- What the cast or a callback throws is caught. -/
def fromString (yaml : Yaml Val) (v : Variable Val) (text : Text) : Variable Val × Bool :=
  match yaml.fromStr v.type text with
  | none => (v, false)
  | some value => v.setValue value

/-- Texts one after the other. -/
def fromStrings (yaml : Yaml Val) (v : Variable Val) (texts : List Text) : Variable Val :=
  texts.foldl (fun v text => (v.fromString yaml text).1) v

/-- No callback throws. -/
def Docile (v : Variable Val) : Prop := ∀ cb ∈ v.cbs, ∀ old new, cb.2 old new = true

variable {yaml : Yaml Val} {v : Variable Val}

theorem setValue_docile (h : v.Docile) (value : Val v.type) :
    (v.setValue value).1 = { v with value := value } := by
  rw [setValue]
  split
  · rename_i heq
    rw [← heq]
  · rw [if_pos (List.all_eq_true.mpr fun cb hcb => h cb hcb v.value value)]

theorem fromString_docile (h : v.Docile) (text : Text) :
    (v.fromString yaml text).1 =
      { v with value := (yaml.fromStr v.type text).getD v.value } := by
  rw [fromString]
  cases yaml.fromStr v.type text with
  | none => rfl
  | some value => exact setValue_docile h value

end Variable

variable {Ty : Type} {Val : Ty → Type}

/-- The last text that can be cast. -/
def Yaml.last (yaml : Yaml Val) (t : Ty) (texts : List Text) : Option (Val t) :=
  (texts.filterMap (yaml.fromStr t)).getLast?

/-- What `LoadFromYaml` gives to `fromString`. -/
def Yaml.text (yaml : Yaml Val) : Node → Text
  | .scalar text => text
  | node => yaml.dump node

/-- The texts of all members with a name, in the order of the document. -/
def Yaml.texts (yaml : Yaml Val) (root : Node) (name : Text) : List Text :=
  if name.isEmpty || !valid name then []
  else ((members root).filter fun m => joined m.1 == name).map fun m => yaml.text m.2

namespace Variable

variable [∀ t, DecidableEq (Val t)] {yaml : Yaml Val} {v : Variable Val}

theorem fromStrings_docile (h : v.Docile) (texts : List Text) :
    v.fromStrings yaml texts = { v with value := (yaml.last v.type texts).getD v.value } := by
  induction texts generalizing v with
  | nil => rfl
  | cons text texts ih =>
    have hstep : v.fromStrings yaml (text :: texts) =
        ({ v with value := (yaml.fromStr v.type text).getD v.value } :
          Variable Val).fromStrings yaml texts := by
      rw [fromStrings, List.foldl_cons, fromString_docile h, fromStrings]
    rw [hstep, @ih { v with value := (yaml.fromStr v.type text).getD v.value } h]
    simp only [Yaml.last]
    cases hcast : yaml.fromStr v.type text with
    | none => rw [List.filterMap_cons_none hcast, Option.getD_none]
    | some value =>
      rw [List.filterMap_cons_some hcast, List.getLast?_cons, Option.getD_some, Option.getD_some]

/-- Nothing is lost by giving the texts again. -/
theorem fromStrings_idem {texts : List Text} (h : v.Docile)
    (hvalue : ∀ x ∈ yaml.last v.type texts, v.value = x) :
    v.fromStrings yaml texts = v := by
  rw [fromStrings_docile h]
  cases hlast : yaml.last v.type texts with
  | none => rfl
  | some x =>
    rw [Option.getD_some, ← hvalue x hlast]

end Variable

/-! ## The registry -/

/-- How `Lookup<T>` with a default ends: with the variable, with a null pointer, or thrown. -/
inductive Looked where
  | found
  | null
  | thrown
  deriving DecidableEq, Repr

/-- A file in a directory; no content when `LoadFile` throws. -/
structure File where
  path : String
  mtime : Nat
  content : Option Node

/-- The order of the map. -/
def less (a b : Text) : Bool := decide (a < b)

end Config

open Config

structure Config {Ty : Type} (Val : Ty → Type) where
  /-- `GetData` -/
  data : List (Text × Variable Val)
  /-- `s_fun_id` of `ConfigVar<T>` -/
  funId : Ty → Nat
  /-- `s_file2modifytime`; what it has no entry for is 0 -/
  modified : String → Nat

namespace Config

variable {Ty : Type} {Val : Ty → Type}

def init : Config Val := ⟨[], fun _ => 0, fun _ => 0⟩

def LookupBase (s : Config Val) (name : Text) : Option (Variable Val) :=
  OrderedMap.find less name s.data

/-- A variable is changed behind its pointer. -/
def modify (s : Config Val) (name : Text) (f : Variable Val → Variable Val) : Config Val :=
  { s with data := s.data.map fun e => if e.1 = name then (e.1, f e.2) else e }

section Load

variable [∀ t, DecidableEq (Val t)]

/-- The body of the loop of `LoadFromYaml`. -/
def loadMember (yaml : Yaml Val) (s : Config Val) (i : Text × Node) : Config Val :=
  if i.1.isEmpty then s
  else
    let key := i.1.map Char.toLower
    match s.LookupBase key with
    | none => s
    | some _ => s.modify key fun v => (v.fromString yaml (yaml.text i.2)).1

def LoadFromYaml (yaml : Yaml Val) (root : Node) (s : Config Val) : Config Val :=
  (ListAllMember [] root).foldl (loadMember yaml) s

/-- The body of the loop of `LoadFromConfDir`. -/
def loadFile (yaml : Yaml Val) (force : Bool) (s : Config Val) (i : File) : Config Val :=
  if !force && s.modified i.path == i.mtime then s
  else
    let s := { s with modified := Function.update s.modified i.path i.mtime }
    match i.content with
    | none => s
    | some root => s.LoadFromYaml yaml root

def LoadFromConfDir (yaml : Yaml Val) (files : List File) (force : Bool) (s : Config Val) :
    Config Val :=
  files.foldl (loadFile yaml force) s

/-! ### What a document does to the variables -/

variable {yaml : Yaml Val} {s : Config Val} {root : Node} {name : Text}

theorem toLower_of_valid (h : valid name = true) : name.map Char.toLower = name := by
  have hchar : ∀ c ∈ name, c.toLower = c := by
    intro c hc
    have hmem := List.contains_iff_mem.mp (List.all_eq_true.mp h c hc)
    exact of_decide_eq_true (List.all_eq_true.mp
      (by decide : "abcdefghijklmnopqrstuvwxyz0123456789_.".toList.all
        fun c => decide (c.toLower = c)) c hmem)
  rw [List.map_congr_left hchar, List.map_id']

theorem same_iff_eq {a b : Text} : OrderedMap.same less a b = true ↔ a = b := by
  rw [OrderedMap.same_iff, less, less, decide_eq_false_iff_not, decide_eq_false_iff_not]
  constructor
  · rintro ⟨hab, hba⟩
    exact le_antisymm (not_lt.mp hba) (not_lt.mp hab)
  · rintro rfl
    exact ⟨lt_irrefl a, lt_irrefl a⟩

theorem strictWeak_less : OrderedMap.StrictWeak less where
  irrefl a := decide_eq_false (lt_irrefl a)
  trans a b c hab hbc :=
    decide_eq_true (lt_trans (of_decide_eq_true hab) (of_decide_eq_true hbc))
  weak a b c hac := by
    cases lt_or_ge a b with
    | inl hab => exact .inl (decide_eq_true hab)
    | inr hba => exact .inr (decide_eq_true (lt_of_le_of_lt hba (of_decide_eq_true hac)))

omit [∀ t, DecidableEq (Val t)] in
theorem LookupBase_eq (s : Config Val) (name : Text) :
    s.LookupBase name = (s.data.find? fun e => e.1 = name).map Prod.snd := by
  have hsame : (fun e : Text × Variable Val => OrderedMap.same less e.1 name) =
      fun e => decide (e.1 = name) := by
    funext e
    rw [Bool.eq_iff_iff, same_iff_eq, decide_eq_true_iff]
  rw [LookupBase, OrderedMap.find, hsame]

omit [∀ t, DecidableEq (Val t)] in
theorem ne_of_LookupBase (h : s.LookupBase name = none) {e : Text × Variable Val}
    (he : e ∈ s.data) : e.1 ≠ name := by
  rw [LookupBase_eq, Option.map_eq_none_iff, List.find?_eq_none] at h
  exact fun heq => h e he (decide_eq_true heq)

/-- Every variable is changed in a way that its name decides. -/
def onEach (s : Config Val) (f : Text → Variable Val → Variable Val) : Config Val :=
  { s with data := s.data.map fun e => (e.1, f e.1 e.2) }

omit [∀ t, DecidableEq (Val t)] in
theorem onEach_eq_self {f : Text → Variable Val → Variable Val}
    (h : ∀ e ∈ s.data, f e.1 e.2 = e.2) : s.onEach f = s := by
  have hdata : s.data.map (fun e => (e.1, f e.1 e.2)) = s.data := by
    rw [List.map_congr_left (g := id), List.map_id]
    intro e he
    rw [h e he]
    rfl
  rw [onEach, hdata]

omit [∀ t, DecidableEq (Val t)] in
theorem onEach_onEach (f g : Text → Variable Val → Variable Val) :
    (s.onEach f).onEach g = s.onEach fun name v => g name (f name v) := by
  simp only [onEach, List.map_map, Function.comp_def]

omit [∀ t, DecidableEq (Val t)] in
theorem LookupBase_onEach (f : Text → Variable Val → Variable Val) (name : Text) :
    (s.onEach f).LookupBase name = (s.LookupBase name).map (f name) := by
  rw [LookupBase_eq, LookupBase_eq, onEach, List.find?_map, Option.map_map, Option.map_map]
  have hname : (fun e : Text × Variable Val => decide (e.1 = name)) ∘
      (fun e : Text × Variable Val => (e.1, f e.1 e.2)) = fun e => decide (e.1 = name) := rfl
  rw [hname]
  cases hfind : s.data.find? fun e => e.1 = name with
  | none => rfl
  | some e =>
    have hfound := List.find?_some hfind
    have heq : e.1 = name := of_decide_eq_true hfound
    rw [Option.map_some, Option.map_some, Function.comp_apply, Function.comp_apply, heq]

/-- The texts that a member brings to a variable. -/
def brought (yaml : Yaml Val) (i : Text × Node) (name : Text) : List Text :=
  if !i.1.isEmpty && i.1 == name then [yaml.text i.2] else []

theorem loadMember_eq {i : Text × Node} (hi : valid i.1 = true) :
    s.loadMember yaml i =
      s.onEach fun name v => v.fromStrings yaml (brought yaml i name) := by
  have hnone : (∀ e ∈ s.data, brought yaml i e.1 = []) →
      s = s.onEach fun name v => v.fromStrings yaml (brought yaml i name) := by
    intro h
    refine (onEach_eq_self fun e he => ?_).symm
    rw [h e he]
    rfl
  rw [loadMember]
  cases hempty : i.1.isEmpty with
  | true => exact hnone fun e _ => by rw [brought, hempty]; rfl
  | false =>
    rw [if_neg Bool.false_ne_true]
    dsimp only
    rw [toLower_of_valid hi]
    cases hfind : s.LookupBase i.1 with
    | none =>
      refine hnone fun e he => ?_
      have hne : (i.1 == e.1) = false := beq_false_of_ne (ne_of_LookupBase hfind he).symm
      rw [brought, hne, Bool.and_false, if_neg Bool.false_ne_true]
    | some v =>
      dsimp only
      rw [modify, onEach]
      congr 2
      funext e
      by_cases heq : e.1 = i.1
      · have hbrought : brought yaml i e.1 = [yaml.text i.2] := by
          rw [brought, hempty, heq, beq_self_eq_true]
          rfl
        rw [if_pos heq, hbrought]
        rfl
      · have hbrought : brought yaml i e.1 = [] := by
          rw [brought, beq_false_of_ne (Ne.symm heq), Bool.and_false, if_neg Bool.false_ne_true]
        rw [if_neg heq, hbrought]
        rfl

theorem foldl_loadMember {ms : List (Text × Node)} (h : ∀ i ∈ ms, valid i.1 = true) :
    ms.foldl (loadMember yaml) s =
      s.onEach fun name v => v.fromStrings yaml (ms.flatMap fun i => brought yaml i name) := by
  induction ms generalizing s with
  | nil => exact (onEach_eq_self fun e _ => rfl).symm
  | cons i ms ih =>
    rw [List.foldl_cons, loadMember_eq (h i List.mem_cons_self),
      ih fun i hi => h i (List.mem_cons_of_mem _ hi), onEach_onEach]
    simp only [List.flatMap_cons, Variable.fromStrings, List.foldl_append]

omit [∀ t, DecidableEq (Val t)] in
theorem flatMap_brought (name : Text) (ms : List (Text × Node)) :
    (ms.flatMap fun i => brought yaml i name) =
      (ms.filter fun i => !i.1.isEmpty && i.1 == name).map fun i => yaml.text i.2 := by
  induction ms with
  | nil => rfl
  | cons i ms ih =>
    rw [List.flatMap_cons, ih, brought, List.filter_cons]
    split
    · rw [List.map_cons, List.singleton_append]
    · rw [List.nil_append]

omit [∀ t, DecidableEq (Val t)] in
/-- What the walk finds of a name is what the document has of it. -/
theorem brought_ListAllMember (name : Text) :
    ((ListAllMember [] root).flatMap fun i => brought yaml i name) = yaml.texts root name := by
  have hnone : (name.isEmpty || !valid name) = true → ∀ i : Text × Node,
      ((!i.1.isEmpty && i.1 == name) && valid i.1) = false := by
    intro h i
    rw [Bool.eq_false_iff]
    intro hi
    simp only [Bool.and_eq_true, beq_iff_eq, Bool.not_eq_true'] at hi
    obtain ⟨⟨hne, rfl⟩, hvalid⟩ := hi
    rw [hne, hvalid] at h
    cases h
  rw [flatMap_brought, ListAllMember_eq, List.filter_filter, Yaml.texts]
  cases hname : name.isEmpty || !valid name with
  | true =>
    rw [if_pos rfl, List.filter_eq_nil_iff.mpr fun i _ => Bool.eq_false_iff.mp (hnone hname i),
      List.map_nil]
  | false =>
    rw [Bool.or_eq_false_iff, Bool.not_eq_false'] at hname
    have hsome : ∀ i : Text × Node,
        ((!i.1.isEmpty && i.1 == name) && valid i.1) = (i.1 == name) := by
      intro i
      cases heq : i.1 == name with
      | false => rw [Bool.and_false, Bool.false_and]
      | true => rw [beq_iff_eq.mp heq, hname.1, hname.2]; rfl
    simp only [hsome]
    rw [if_neg Bool.false_ne_true, List.filter_map, List.map_map]
    simp only [Function.comp_def, named, foldl_extend]

/-- A document gives to each variable the texts of the members with its name, and does nothing
else. -/
theorem LoadFromYaml_eq (yaml : Yaml Val) (root : Node) (s : Config Val) :
    s.LoadFromYaml yaml root =
      s.onEach fun name v => v.fromStrings yaml (yaml.texts root name) := by
  have hvalid : ∀ i ∈ ListAllMember [] root, valid i.1 = true := by
    intro i hi
    rw [ListAllMember_eq] at hi
    exact (List.mem_filter.mp hi).2
  rw [LoadFromYaml, foldl_loadMember hvalid]
  simp only [brought_ListAllMember]

/-- A variable gets the texts of the members whose keys make up its name, in the order of the
document, and no other text: a name that is not allowed cuts off nothing that belongs to one that
is. -/
theorem LookupBase_LoadFromYaml (yaml : Yaml Val) (root : Node) (s : Config Val) (name : Text) :
    (s.LoadFromYaml yaml root).LookupBase name =
      (s.LookupBase name).map fun v => v.fromStrings yaml (yaml.texts root name) := by
  rw [LoadFromYaml_eq, LookupBase_onEach]

end Load

/-! ## Calls one after the other -/

def Lookup [DecidableEq Ty] (s : Config Val) (name : Text) (t : Ty) (default : Val t) :
    Looked × Config Val :=
  match s.LookupBase name with
  | some v => (if v.type = t then .found else .null, s)
  | none =>
    if valid name then
      (.found, { s with data := OrderedMap.insert less name ⟨t, default, []⟩ s.data })
    else (.thrown, s)

/-- `Lookup<T>` without a default, and the call through the pointer that it returns. -/
def withVariable [DecidableEq Ty] (s : Config Val) (name : Text) (t : Ty)
    (f : (v : Variable Val) → t = v.type → Variable Val) : Config Val :=
  s.modify name fun v => if h : t = v.type then f v h else v

/-- A call from outside, with the name and the type that a variable was looked up with. -/
inductive Act {Ty : Type} (Val : Ty → Type) where
  | Lookup (name : Text) (t : Ty) (default : Val t)
  | setValue (name : Text) (t : Ty) (value : Val t)
  | addListener (name : Text) (t : Ty) (cb : Val t → Val t → Bool)
  | delListener (name : Text) (t : Ty) (key : Nat)
  | clearListener (name : Text) (t : Ty)
  | LoadFromYaml (root : Node)
  | LoadFromConfDir (files : List File) (force : Bool)

section Step

variable [DecidableEq Ty] [∀ t, DecidableEq (Val t)]

def addListener (s : Config Val) (name : Text) (t : Ty) (cb : Val t → Val t → Bool) : Config Val :=
  match s.LookupBase name with
  | none => s
  | some v =>
    if v.type = t then
      let s := { s with funId := Function.update s.funId t (s.funId t + 1) }
      s.withVariable name t fun v h => { v with cbs := v.cbs ++ [(s.funId t, h ▸ cb)] }
    else s

def step (yaml : Yaml Val) (s : Config Val) : Act Val → Config Val
  | .Lookup name t default => (s.Lookup name t default).2
  | .setValue name t value => s.withVariable name t fun v h => (v.setValue (h ▸ value)).1
  | .addListener name t cb => s.addListener name t cb
  | .delListener name t key =>
    s.withVariable name t fun v _ => { v with cbs := v.cbs.filter fun cb => cb.1 != key }
  | .clearListener name t => s.withVariable name t fun v _ => { v with cbs := [] }
  | .LoadFromYaml root => s.LoadFromYaml yaml root
  | .LoadFromConfDir files force => s.LoadFromConfDir yaml files force

def Step (yaml : Yaml Val) (s : Config Val) (a : Act Val) (s' : Config Val) : Prop :=
  s.step yaml a = s'

/-- The calls with the states that they lead to. -/
def record (yaml : Yaml Val) : Config Val → List (Act Val) → List (Act Val × Config Val)
  | _, [] => []
  | s, a :: calls => (a, s.step yaml a) :: record yaml (s.step yaml a) calls

theorem run_record (yaml : Yaml Val) (s : Config Val) (calls : List (Act Val)) :
    Runs.Run (Step yaml) s (record yaml s calls) := by
  induction calls generalizing s with
  | nil => exact .nil s
  | cons a calls ih => exact .cons rfl (ih _)

end Step

/-! ## Files that are passed over

Each variable is set by one file at most (`owner`), and a file of the same time has the same content
(`content`). -/

variable {yaml : Yaml Val} {owner : Text → Option String} {content : String → Nat → Option Node}
  {s s' : Config Val}

/-- A document sets only variables of this owner. -/
def Owned (yaml : Yaml Val) (owner : Text → Option String) (who : Option String) (root : Node) :
    Prop :=
  ∀ name, yaml.texts root name ≠ [] → owner name = who

structure Fits (yaml : Yaml Val) (owner : Text → Option String)
    (content : String → Nat → Option Node) (i : File) : Prop where
  mtime_ne : i.mtime ≠ 0
  content_eq : i.content = content i.path i.mtime
  owned : ∀ root ∈ i.content, Owned yaml owner (some i.path) root

/-- Variables are there before their file is loaded, only the file sets them, and no callback
throws. -/
def Orderly (yaml : Yaml Val) (owner : Text → Option String) (content : String → Nat → Option Node)
    (s : Config Val) : Act Val → Prop
  | .Lookup name _ _ => ∀ path ∈ owner name, s.modified path = 0 ∨ s.LookupBase name ≠ none
  | .setValue name _ _ => owner name = none
  | .addListener _ _ cb => ∀ old new, cb old new = true
  | .delListener _ _ _ => True
  | .clearListener _ _ => True
  | .LoadFromYaml root => Owned yaml owner none root
  | .LoadFromConfDir files _ => ∀ i ∈ files, Fits yaml owner content i

/-- The variable has what a document says. -/
def Follows (yaml : Yaml Val) (root : Node) (name : Text) (v : Variable Val) : Prop :=
  ∀ x ∈ yaml.last v.type (yaml.texts root name), v.value = x

/-- The document that was last read of a file. -/
def Seen (content : String → Nat → Option Node) (modified : String → Nat) (path : String)
    (root : Node) : Prop :=
  modified path ≠ 0 ∧ root ∈ content path (modified path)

/-- What was last read of a file is what its variables have. -/
structure Settled (yaml : Yaml Val) (owner : Text → Option String)
    (content : String → Nat → Option Node) (s : Config Val) : Prop where
  docile : ∀ e ∈ s.data, e.2.Docile
  owned : ∀ path root, Seen content s.modified path root → Owned yaml owner (some path) root
  follows : ∀ path root, Seen content s.modified path root →
    ∀ e ∈ s.data, Follows yaml root e.1 e.2

theorem settled_init : Settled yaml owner content (init : Config Val) where
  docile _ he := absurd he List.not_mem_nil
  owned _ _ hseen := absurd rfl hseen.1
  follows _ _ hseen := absurd rfl hseen.1

/-- What a document does not name follows it. -/
theorem follows_of_texts {root : Node} {name : Text} {v : Variable Val}
    (h : yaml.texts root name = []) : Follows yaml root name v := by
  intro x hx
  rw [h] at hx
  cases hx

/-- When a file has been read, its document is the one seen, and the others are as before. -/
theorem Fits.seen {i : File} (hi : Fits yaml owner content i) {modified : String → Nat}
    {path : String} {root : Node}
    (h : Seen content (Function.update modified i.path i.mtime) path root) :
    path = i.path ∧ root ∈ i.content ∨ path ≠ i.path ∧ Seen content modified path root := by
  by_cases heq : path = i.path
  · refine .inl ⟨heq, ?_⟩
    have hroot := h.2
    rw [heq, Function.update_self, ← hi.content_eq] at hroot
    exact hroot
  · rw [Seen, Function.update_of_ne heq] at h
    exact .inr ⟨heq, h⟩

/-- A variable may be changed as long as it follows the documents of its file. -/
theorem Settled.modify (h : Settled yaml owner content s) (name : Text)
    {f : Variable Val → Variable Val} (hdocile : ∀ v, v.Docile → (f v).Docile)
    (hfollows : ∀ path root v, v.Docile → Owned yaml owner (some path) root →
      Follows yaml root name v → Follows yaml root name (f v)) :
    Settled yaml owner content (s.modify name f) := by
  refine ⟨fun e he => ?_, h.owned, fun path root hseen e he => ?_⟩
  · obtain ⟨e', he', rfl⟩ := List.mem_map.mp he
    split
    · exact hdocile _ (h.docile e' he')
    · exact h.docile e' he'
  · obtain ⟨e', he', rfl⟩ := List.mem_map.mp he
    have hold := h.follows path root hseen e' he'
    split
    · rename_i heq
      dsimp only
      rw [heq] at hold ⊢
      exact hfollows path root e'.2 (h.docile e' he') (h.owned path root hseen) hold
    · exact hold

section Load

variable [∀ t, DecidableEq (Val t)]

/-- A settled document is loaded without effect. -/
theorem LoadFromYaml_follows {root : Node} (hdocile : ∀ e ∈ s.data, e.2.Docile)
    (h : ∀ e ∈ s.data, Follows yaml root e.1 e.2) : s.LoadFromYaml yaml root = s := by
  rw [LoadFromYaml_eq]
  exact onEach_eq_self fun e he => Variable.fromStrings_idem (hdocile e he) (h e he)

theorem docile_fromStrings {v : Variable Val} (h : v.Docile) (texts : List Text) :
    (v.fromStrings yaml texts).Docile := by
  rw [Variable.fromStrings_docile h]
  exact h

theorem follows_fromStrings {root : Node} {name : Text} {v : Variable Val} (h : v.Docile) :
    Follows yaml root name (v.fromStrings yaml (yaml.texts root name)) := by
  rw [Variable.fromStrings_docile h]
  intro x hx
  dsimp only at hx ⊢
  rw [Option.mem_def.mp hx, Option.getD_some]

/-- A document of another owner does not change what a document set. -/
theorem Follows.fromStrings {root root' : Node} {who who' : Option String} {name : Text}
    {v : Variable Val} (h : Follows yaml root name v) (howned : Owned yaml owner who root)
    (howned' : Owned yaml owner who' root') (hne : who ≠ who') :
    Follows yaml root name (v.fromStrings yaml (yaml.texts root' name)) := by
  by_cases htexts : yaml.texts root' name = []
  · rw [htexts]
    exact h
  · refine follows_of_texts (not_not.mp fun hroot => hne ?_)
    exact (howned name hroot).symm.trans (howned' name htexts)

theorem Settled.LoadFromYaml (h : Settled yaml owner content s) {root : Node}
    (hroot : Owned yaml owner none root) :
    Settled yaml owner content (s.LoadFromYaml yaml root) := by
  rw [LoadFromYaml_eq]
  refine ⟨fun e he => ?_, h.owned, fun path root' hseen e he => ?_⟩
  · obtain ⟨e', he', rfl⟩ := List.mem_map.mp he
    exact docile_fromStrings (h.docile e' he') _
  · obtain ⟨e', he', rfl⟩ := List.mem_map.mp he
    exact (h.follows path root' hseen e' he').fromStrings (h.owned path root' hseen) hroot (by simp)

/-- To pass over a file that is as before has the effect of loading it. -/
theorem Settled.loadFile_force (h : Settled yaml owner content s) {i : File}
    (hi : Fits yaml owner content i) (force : Bool) :
    s.loadFile yaml force i = s.loadFile yaml true i := by
  cases force with
  | true => rfl
  | false =>
    rw [loadFile, loadFile]
    simp only [Bool.not_false, Bool.true_and, Bool.not_true, Bool.false_and, Bool.false_eq_true,
      if_false, beq_iff_eq]
    split
    · rename_i hsame
      have hmodified : Function.update s.modified i.path i.mtime = s.modified := by
        rw [← hsame, Function.update_eq_self]
      rw [hmodified]
      cases hroot : i.content with
      | none => rfl
      | some root =>
        have hseen : Seen content s.modified i.path root := by
          rw [Seen, hsame, ← hi.content_eq]
          exact ⟨hi.mtime_ne, hroot⟩
        exact (LoadFromYaml_follows h.docile (h.follows i.path root hseen)).symm
    · rfl

theorem Settled.loadFile (h : Settled yaml owner content s) {i : File}
    (hi : Fits yaml owner content i) (force : Bool) :
    Settled yaml owner content (s.loadFile yaml force i) ∧
      (s.loadFile yaml force i).modified = Function.update s.modified i.path i.mtime := by
  rw [h.loadFile_force hi force]
  have hload : s.loadFile yaml true i =
      match i.content with
      | none => { s with modified := Function.update s.modified i.path i.mtime }
      | some root => ({ s with modified := Function.update s.modified i.path i.mtime } :
          Config Val).LoadFromYaml yaml root := rfl
  rw [hload]
  cases hroot : i.content with
  | none =>
    refine ⟨⟨h.docile, fun path root' hseen => ?_, fun path root' hseen => ?_⟩, rfl⟩
    · cases hi.seen hseen with
      | inl hnew => exact absurd (hroot.symm.trans hnew.2) (by simp)
      | inr hold => exact h.owned path root' hold.2
    · cases hi.seen hseen with
      | inl hnew => exact absurd (hroot.symm.trans hnew.2) (by simp)
      | inr hold => exact h.follows path root' hold.2
  | some root =>
    have howned := hi.owned root hroot
    dsimp only
    rw [LoadFromYaml_eq]
    refine ⟨⟨fun e he => ?_, fun path root' hseen => ?_, fun path root' hseen e he => ?_⟩, rfl⟩
    · obtain ⟨e', he', rfl⟩ := List.mem_map.mp he
      exact docile_fromStrings (h.docile e' he') _
    · rcases hi.seen hseen with ⟨heq, hnew⟩ | ⟨-, hold⟩
      · exact heq ▸ hi.owned root' hnew
      · exact h.owned path root' hold
    · obtain ⟨e', he', rfl⟩ := List.mem_map.mp he
      rcases hi.seen hseen with ⟨-, hnew⟩ | ⟨hne, hold⟩
      · cases hroot.symm.trans hnew
        exact follows_fromStrings (h.docile e' he')
      · refine (h.follows path root' hold e' he').fromStrings (h.owned path root' hold) howned ?_
        rw [ne_eq, Option.some.injEq]
        exact hne

/-- With and without force a load leads to the same state. -/
theorem Settled.LoadFromConfDir (h : Settled yaml owner content s) {files : List File}
    (hfiles : ∀ i ∈ files, Fits yaml owner content i) (force : Bool) :
    Settled yaml owner content (s.LoadFromConfDir yaml files force) ∧
      s.LoadFromConfDir yaml files force = s.LoadFromConfDir yaml files true := by
  induction files generalizing s with
  | nil => exact ⟨h, rfl⟩
  | cons i files ih =>
    have hi := hfiles i List.mem_cons_self
    have hrest := ih (h.loadFile hi true).1 fun i hi => hfiles i (List.mem_cons_of_mem _ hi)
    rw [Config.LoadFromConfDir, List.foldl_cons, h.loadFile_force hi force]
    exact hrest

/-- The times of files that are not in the directory stay. -/
theorem Settled.modified_other (h : Settled yaml owner content s) {files : List File}
    (hfiles : ∀ i ∈ files, Fits yaml owner content i) (force : Bool) {path : String}
    (hpath : path ∉ files.map File.path) :
    (s.LoadFromConfDir yaml files force).modified path = s.modified path := by
  induction files generalizing s with
  | nil => rfl
  | cons i files ih =>
    rw [List.map_cons, List.mem_cons, not_or] at hpath
    obtain ⟨hsettled, hmodified⟩ := h.loadFile (hfiles i List.mem_cons_self) force
    have hrest := ih hsettled (fun i hi => hfiles i (List.mem_cons_of_mem _ hi)) hpath.2
    rw [hmodified, Function.update_of_ne hpath.1] at hrest
    exact hrest

theorem Settled.modified_eq (h : Settled yaml owner content s) {files : List File}
    (hfiles : ∀ i ∈ files, Fits yaml owner content i) (force : Bool)
    (hnodup : (files.map File.path).Nodup) {i : File} (hi : i ∈ files) :
    (s.LoadFromConfDir yaml files force).modified i.path = i.mtime := by
  induction files generalizing s with
  | nil => exact absurd hi List.not_mem_nil
  | cons i' files ih =>
    rw [List.map_cons, List.nodup_cons] at hnodup
    obtain ⟨hsettled, hmodified⟩ := h.loadFile (hfiles i' List.mem_cons_self) force
    have htail : ∀ i ∈ files, Fits yaml owner content i :=
      fun i hi => hfiles i (List.mem_cons_of_mem _ hi)
    cases List.mem_cons.mp hi with
    | inl heq =>
      subst heq
      have hrest := hsettled.modified_other htail force hnodup.1
      rw [hmodified, Function.update_self] at hrest
      exact hrest
    | inr hmem => exact ih hsettled htail hnodup.2 hmem

theorem loadFile_data {s s' : Config Val} (h : s.data = s'.data) (i : File) :
    (s.loadFile yaml true i).data = (s'.loadFile yaml true i).data := by
  rw [loadFile, loadFile]
  simp only [Bool.not_true, Bool.false_and, Bool.false_eq_true, if_false]
  cases i.content with
  | none => exact h
  | some root =>
    simp only [LoadFromYaml_eq, onEach, h]

theorem LoadFromConfDir_data {s s' : Config Val} (h : s.data = s'.data) (files : List File) :
    (s.LoadFromConfDir yaml files true).data = (s'.LoadFromConfDir yaml files true).data := by
  induction files generalizing s s' with
  | nil => exact h
  | cons i files ih => exact ih (loadFile_data h i)

/-- What a load gives to the variables of its files. -/
theorem Settled.load_follows (h : Settled yaml owner content s) {files : List File}
    (hfiles : ∀ i ∈ files, Fits yaml owner content i) (force : Bool)
    (hnodup : (files.map File.path).Nodup) {i : File} (hi : i ∈ files) {root : Node}
    (hroot : root ∈ i.content) {e : Text × Variable Val}
    (he : e ∈ (s.LoadFromConfDir yaml files force).data) : Follows yaml root e.1 e.2 := by
  refine (h.LoadFromConfDir hfiles force).1.follows i.path root ?_ e he
  rw [Seen, h.modified_eq hfiles force hnodup hi, ← (hfiles i hi).content_eq]
  exact ⟨(hfiles i hi).mtime_ne, hroot⟩

/-- With force every variable gets what its file says, whenever it was added and whatever the times
are. -/
theorem forced_follows (hdocile : ∀ e ∈ s.data, e.2.Docile) {files : List File}
    (hfiles : ∀ i ∈ files, Fits yaml owner content i) (hnodup : (files.map File.path).Nodup)
    {i : File} (hi : i ∈ files) {root : Node} (hroot : root ∈ i.content) {e : Text × Variable Val}
    (he : e ∈ (s.LoadFromConfDir yaml files true).data) : Follows yaml root e.1 e.2 := by
  -- the times do not matter, so they may be those of the start
  have hs : Settled yaml owner content { s with modified := fun _ => 0 } :=
    ⟨hdocile, fun _ _ hseen => absurd rfl hseen.1, fun _ _ hseen => absurd rfl hseen.1⟩
  rw [@LoadFromConfDir_data _ _ yaml _ s { s with modified := fun _ => 0 } rfl files] at he
  exact hs.load_follows hfiles true hnodup hi hroot he

end Load

section Runs

open Runs

variable [DecidableEq Ty]

theorem Settled.Lookup (h : Settled yaml owner content s) {name : Text} {t : Ty} {default : Val t}
    (hok : ∀ path ∈ owner name, s.modified path = 0 ∨ s.LookupBase name ≠ none) :
    Settled yaml owner content (s.Lookup name t default).2 := by
  rw [Config.Lookup]
  cases hfind : s.LookupBase name with
  | some v => exact h
  | none =>
    dsimp only
    split
    · have hnew : ∀ e ∈ OrderedMap.insert less name ⟨t, default, []⟩ s.data,
          e ∈ s.data ∨ e.1 = name ∧ e.2 = ⟨t, default, []⟩ := by
        intro e he
        refine (OrderedMap.mem_insert_value strictWeak_less he).imp_right fun hsame => ?_
        exact ⟨same_iff_eq.mp hsame.1, hsame.2⟩
      refine ⟨fun e he => ?_, h.owned, fun path root hseen e he => ?_⟩
      · rcases hnew e he with hold | ⟨-, heq⟩
        · exact h.docile e hold
        · rw [heq]
          exact fun cb hcb => absurd hcb List.not_mem_nil
      · rcases hnew e he with hold | ⟨heq, -⟩
        · exact h.follows path root hseen e hold
        · refine follows_of_texts (not_not.mp fun htexts => ?_)
          rw [heq] at htexts
          cases hok path (h.owned path root hseen name htexts) with
          | inl hzero => exact hseen.1 hzero
          | inr hsome => exact hsome hfind
    · exact h

theorem Settled.withVariable (h : Settled yaml owner content s) (name : Text) (t : Ty)
    {f : (v : Variable Val) → t = v.type → Variable Val}
    (hdocile : ∀ v ht, v.Docile → (f v ht).Docile)
    (hfollows : ∀ path root v ht, v.Docile → Owned yaml owner (some path) root →
      Follows yaml root name v → Follows yaml root name (f v ht)) :
    Settled yaml owner content (s.withVariable name t f) := by
  refine h.modify name (fun v hv => ?_) fun path root v hv howned hold => ?_
  · split
    · exact hdocile v _ hv
    · exact hv
  · split
    · exact hfollows path root v _ hv howned hold
    · exact hold

variable [∀ t, DecidableEq (Val t)]

theorem step_settled {a : Act Val} (h : Settled yaml owner content s)
    (hok : Orderly yaml owner content s a) : Settled yaml owner content (s.step yaml a) := by
  cases a with
  | Lookup name t default => exact h.Lookup hok
  | setValue name t value =>
    refine h.withVariable name t (fun v ht hv => ?_) fun path root v ht hv howned hold => ?_
    · rw [Variable.setValue_docile hv]
      exact hv
    · refine follows_of_texts (not_not.mp fun htexts => ?_)
      cases (howned name htexts).symm.trans hok
  | addListener name t cb =>
    rw [step, addListener]
    cases s.LookupBase name with
    | none => exact h
    | some v =>
      dsimp only
      split
      · have hs : Settled yaml owner content
            { s with funId := Function.update s.funId t (s.funId t + 1) } :=
          ⟨h.docile, h.owned, h.follows⟩
        refine hs.withVariable name t (fun v ht hv => ?_) fun path root v ht hv howned hold => ?_
        · obtain ⟨type, value, cbs⟩ := v
          cases ht
          intro cb' hcb' old new
          cases List.mem_append.mp hcb' with
          | inl hmem => exact hv cb' hmem old new
          | inr hmem =>
            rw [List.mem_singleton.mp hmem]
            exact hok old new
        · exact hold
      · exact h
  | delListener name t key =>
    refine h.withVariable name t (fun v ht hv cb hcb => ?_)
      fun path root v ht hv howned hold => hold
    exact hv cb (List.mem_of_mem_filter hcb)
  | clearListener name t =>
    refine h.withVariable name t (fun v ht hv cb hcb => ?_)
      fun path root v ht hv howned hold => hold
    exact absurd hcb List.not_mem_nil
  | LoadFromYaml root => exact h.LoadFromYaml hok
  | LoadFromConfDir files force => exact (h.LoadFromConfDir hok force).1

/-- What a load of a directory does: the same with and without force, and every variable of a file
that could be read has what the file says. -/
def Reloads (yaml : Yaml Val) (owner : Text → Option String) (content : String → Nat → Option Node)
    (s : Config Val) : Prop :=
  ∀ files, (∀ i ∈ files, Fits yaml owner content i) →
    s.LoadFromConfDir yaml files false = s.LoadFromConfDir yaml files true ∧
    ((files.map File.path).Nodup → ∀ i ∈ files, ∀ root ∈ i.content, ∀ name v,
      (s.LoadFromConfDir yaml files false).LookupBase name = some v → Follows yaml root name v)

omit [DecidableEq Ty] in
theorem Settled.reloads (h : Settled yaml owner content s) : Reloads yaml owner content s := by
  intro files hfiles
  refine ⟨(h.LoadFromConfDir hfiles false).2, fun hnodup i hi root hroot name v hv => ?_⟩
  rw [LookupBase_eq, Option.map_eq_some_iff] at hv
  obtain ⟨e, he, rfl⟩ := hv
  have hname := List.find?_some he
  have hfollows := h.load_follows hfiles false hnodup hi hroot (List.mem_of_find?_eq_some he)
  rw [of_decide_eq_true hname] at hfollows
  exact hfollows

end Runs

/-! ### A directory with one file -/

/-- The digits of an `unsigned int`. -/
def castDigits (text : Text) : Option Nat :=
  if text.isEmpty || !text.all Char.isDigit then none
  else some (text.foldl (fun n c => 10 * n + (c.toNat - '0'.toNat)) 0)

/-- Maps of one entry. -/
def dumpSmall : Node → Text
  | .scalar text => text
  | .map [(key, .scalar text)] => key ++ ": ".toList ++ text
  | .map [(key, .map [(key', .scalar text)])] =>
    key ++ ":\n  ".toList ++ key' ++ ": ".toList ++ text
  | _ => "~".toList

def plainYaml : Yaml fun _ : Unit => Nat := ⟨fun _ => castDigits, dumpSmall⟩

def timeout (text : String) : Node :=
  .map [("tcp".toList, .map [("timeout".toList, .scalar text.toList)])]

def tcpOwner (name : Text) : Option String :=
  if name = "tcp".toList ∨ name = "tcp.timeout".toList then some "tcp.yml" else none

/-- The file says something else from the time 8 on. -/
def tcpContent (path : String) (mtime : Nat) : Option Node :=
  if path = "tcp.yml" then some (timeout (if mtime < 8 then "300" else "500")) else none

def tcpFile (mtime : Nat) : File := ⟨"tcp.yml", mtime, tcpContent "tcp.yml" mtime⟩

/-- The file is loaded, passed over, and loaded again. -/
def tcpCalls : List (Act fun _ : Unit => Nat) :=
  [.Lookup "tcp.timeout".toList () 100, .LoadFromConfDir [tcpFile 7] false,
    .LoadFromConfDir [tcpFile 7] false, .LoadFromConfDir [tcpFile 8] false]

theorem exists_member {Ty : Type} {Val : Ty → Type} {yaml : Yaml Val} {root : Node} {name : Text}
    (h : yaml.texts root name ≠ []) : ∃ m ∈ members root, joined m.1 = name ∧ name ≠ [] := by
  rw [Yaml.texts] at h
  split at h
  · exact absurd rfl h
  · rename_i hname
    obtain ⟨text, htext⟩ := List.exists_mem_of_ne_nil _ h
    obtain ⟨m, hm, -⟩ := List.mem_map.mp htext
    obtain ⟨hm, heq⟩ := List.mem_filter.mp hm
    refine ⟨m, hm, beq_iff_eq.mp heq, fun hnil => hname ?_⟩
    rw [hnil]
    rfl

theorem fits_tcpFile {mtime : Nat} (h : mtime ≠ 0) :
    Fits plainYaml tcpOwner tcpContent (tcpFile mtime) := by
  refine ⟨h, rfl, fun root hroot name htexts => ?_⟩
  obtain ⟨m, hm, hjoined, hne⟩ := exists_member htexts
  rw [← Option.some.inj hroot] at hm
  have hmem : m ∈ [([], timeout (if mtime < 8 then "300" else "500")),
      (["tcp".toList], .map [("timeout".toList,
        .scalar (if mtime < 8 then "300" else "500").toList)]),
      (["tcp".toList, "timeout".toList],
        .scalar (if mtime < 8 then "300" else "500").toList)] := hm
  simp only [List.mem_cons, List.not_mem_nil, or_false] at hmem
  rcases hmem with rfl | rfl | rfl
  · exact absurd hjoined.symm hne
  · exact hjoined ▸ rfl
  · exact hjoined ▸ rfl

/-- The times decide what is loaded; the values are 300, 300 and 500. -/
example : (record plainYaml init tcpCalls).map (fun p => p.2.data.map fun e => e.2.value) =
    [[100], [300], [300], [500]] := by
  decide

end Config

end CxkFramework
