import CxkFramework.LogPattern
import CxkFramework.OrderedSet

/-!
# The configuration of the loggers as text

`LexicalCast` between a set of `LogDefine` and its text, over the nodes of yaml-cpp.
-/

namespace CxkFramework

/-! ## Nodes -/

namespace Yaml

/-- A `YAML::Node`. -/
inductive Node where
  | null
  | scalar (s : String)
  | sequence (l : List Node)
  | map (l : List (String × Node))

/-- `ss << node` and `YAML::Load`, which may throw. -/
structure YamlCpp where
  emit : Node → String
  load : String → Option Node

namespace Node

/-- `node[key]`, which throws on a scalar. The inner option is `IsDefined`. -/
def get (node : Node) (key : String) : Option (Option Node) :=
  match node with
  | null => some none
  | scalar _ => none
  | sequence _ => some none
  | map l => some (l.lookup key)

/-- `as<std::string>()`. -/
def asString : Node → Option String
  | scalar s => some s
  | _ => none

/-- `node[0]`, ..., `node[size() - 1]`. -/
def elements : Node → List Node
  | sequence l => l
  | _ => []

end Node

end Yaml

namespace LogLevel

def FromString (str : String) : LogLevel :=
  if str = "debug" then .DEBUG
  else if str = "info" then .INFO
  else if str = "warn" then .WARN
  else if str = "error" then .ERROR
  else if str = "fatal" then .FATAL
  else .UNKONWING

@[simp] theorem fromString_empty : FromString "" = .UNKONWING := by decide

/-- No name that is written is read. -/
@[simp] theorem fromString_toString (level : LogLevel) :
    FromString level.ToString = .UNKONWING := by
  cases level <;> decide

end LogLevel

/-! ## The two casts -/

namespace Logs

/-- `LogDefine::operator<`. -/
def less (a b : LogDefine) : Bool := decide (a.name < b.name)

theorem less_trans (a b c : LogDefine) (hab : less a b = true) (hbc : less b c = true) :
    less a c = true :=
  decide_eq_true (String.lt_trans (of_decide_eq_true hab) (of_decide_eq_true hbc))

/-- `vec.insert(ld)`, which leaves an element with the same name alone. -/
def insert (vec : Logs) (ld : LogDefine) : Logs where
  defines := OrderedSet.insert less ld vec.defines
  sorted := by
    have hsorted : OrderedSet.Sorted less vec.defines :=
      vec.sorted.imp fun h => decide_eq_true h
    exact (hsorted.insert_of_trans less_trans).imp fun h => of_decide_eq_true h

end Logs

namespace LexicalCast

open Yaml

/-- An entry of `appenders`; `continue` gives nothing. -/
def readAppender (a : Node) : Option (Option LogAppenderDefine) := do
  match ← a.get "type" with
  | none => return none
  | some type =>
    let type ← type.asString
    if type = "FileLogAppender" then
      match ← a.get "file" with
      | none => return none
      | some file =>
        let file ← file.asString
        match ← a.get "formatter" with
        | none => return some ⟨.FileLogAppender, .UNKONWING, "", file⟩
        | some formatter => return some ⟨.FileLogAppender, .UNKONWING, ← formatter.asString, file⟩
    else if type = "StdoutLogAppender" then
      return some ⟨.StdoutLogAppender, .UNKONWING, "", ""⟩
    else return none

/-- An entry of the whole. -/
def readDefine (n : Node) : Option (Option LogDefine) := do
  match ← n.get "name" with
  | none => return none
  | some name =>
    let name ← name.asString
    let level ← match ← n.get "level" with
      | none => pure ""
      | some level => level.asString
    let formatter ← match ← n.get "formatter" with
      | none => pure ""
      | some formatter => formatter.asString
    let appenders ← match ← n.get "appenders" with
      | none => pure []
      | some appenders => appenders.elements.mapM readAppender
    return some ⟨name, .FromString level, formatter, appenders.filterMap id⟩

/-- `LexicalCast<std::string, std::set<LogDefine>>`; nothing when it throws. -/
def logsOfString (yaml : YamlCpp) (v : String) : Option Logs := do
  let node ← yaml.load v
  let defines ← node.elements.mapM readDefine
  return (defines.filterMap id).foldl Logs.insert .empty

def writeAppender (a : LogAppenderDefine) : Node :=
  .map ((match a.type with
    | .FileLogAppender => [("type", .scalar "FileLogAppender"), ("file", .scalar a.file)]
    | .StdoutLogAppender => [("type", .scalar "StdoutLogAppender")]) ++
    (if a.level ≠ .UNKONWING then [("level", .scalar a.level.ToString)] else []) ++
    if a.formatter ≠ "" then [("formatter", .scalar a.formatter)] else [])

def writeDefine (i : LogDefine) : Node :=
  .map (("name", .scalar i.name) ::
    (if i.level ≠ .UNKONWING then [("level", .scalar i.level.ToString)] else []) ++
    -- only an empty formatter is written
    (if i.formatter = "" then [("formatter", .scalar i.formatter)] else []) ++
    if i.appenders = [] then [] else [("appenders", .sequence (i.appenders.map writeAppender))])

def writeLogs (v : Logs) : Node :=
  if v.defines = [] then .null else .sequence (v.defines.map writeDefine)

/-- `LexicalCast<std::set<LogDefine>, std::string>`. -/
def stringOfLogs (yaml : YamlCpp) (v : Logs) : String := yaml.emit (writeLogs v)

/-! ## What comes back -/

/-- What is left of an entry: no level, and a formatter for a file only. -/
def keptAppender (a : LogAppenderDefine) : LogAppenderDefine :=
  match a.type with
  | .FileLogAppender => { a with level := .UNKONWING }
  | .StdoutLogAppender => ⟨.StdoutLogAppender, .UNKONWING, "", ""⟩

def kept (i : LogDefine) : LogDefine :=
  ⟨i.name, .UNKONWING, "", i.appenders.map keptAppender⟩

theorem readAppender_writeAppender (a : LogAppenderDefine) :
    readAppender (writeAppender a) = some (some (keptAppender a)) := by
  obtain ⟨type, level, formatter, file⟩ := a
  cases type with
  | FileLogAppender =>
    by_cases hformatter : formatter = ""
    · subst hformatter
      by_cases hlevel : level = .UNKONWING <;>
        simp [readAppender, writeAppender, Node.get, Node.asString, keptAppender, hlevel,
          List.lookup_cons]
    · by_cases hlevel : level = .UNKONWING <;>
        simp [readAppender, writeAppender, Node.get, Node.asString, keptAppender, hlevel,
          hformatter, List.lookup_cons]
  | StdoutLogAppender =>
    simp [readAppender, writeAppender, Node.get, Node.asString, keptAppender, List.lookup_cons]

theorem readAppenders (appenders : List LogAppenderDefine) :
    (appenders.map writeAppender).mapM readAppender =
      some (appenders.map fun a => some (keptAppender a)) := by
  induction appenders with
  | nil => rfl
  | cons a appenders ih => simp [readAppender_writeAppender, ih]

theorem get_name (i : LogDefine) : (writeDefine i).get "name" = some (some (.scalar i.name)) := rfl

theorem get_level (i : LogDefine) : (writeDefine i).get "level" =
    some (if i.level = .UNKONWING then none else some (.scalar i.level.ToString)) := by
  by_cases hlevel : i.level = .UNKONWING <;> by_cases hformatter : i.formatter = "" <;>
    by_cases happenders : i.appenders = [] <;>
    simp [writeDefine, Node.get, List.lookup_cons, hlevel, hformatter, happenders]

theorem get_formatter (i : LogDefine) : (writeDefine i).get "formatter" =
    some (if i.formatter = "" then some (.scalar "") else none) := by
  by_cases hlevel : i.level = .UNKONWING <;> by_cases hformatter : i.formatter = "" <;>
    by_cases happenders : i.appenders = [] <;>
    simp [writeDefine, Node.get, List.lookup_cons, hlevel, hformatter, happenders]

theorem get_appenders (i : LogDefine) : (writeDefine i).get "appenders" =
    some (if i.appenders = [] then none
      else some (.sequence (i.appenders.map writeAppender))) := by
  by_cases hlevel : i.level = .UNKONWING <;> by_cases hformatter : i.formatter = "" <;>
    by_cases happenders : i.appenders = [] <;>
    simp [writeDefine, Node.get, List.lookup_cons, hlevel, hformatter, happenders]

theorem readDefine_writeDefine (i : LogDefine) :
    readDefine (writeDefine i) = some (some (kept i)) := by
  have happenders := readAppenders i.appenders
  rw [readDefine, get_name, get_level, get_formatter, get_appenders]
  by_cases hlevel : i.level = .UNKONWING <;> by_cases hformatter : i.formatter = "" <;>
    by_cases hempty : i.appenders = [] <;>
    simp [Node.asString, Node.elements, kept, hlevel, hformatter, hempty, happenders]

theorem readDefines (defines : List LogDefine) :
    (defines.map writeDefine).mapM readDefine = some (defines.map fun i => some (kept i)) := by
  induction defines with
  | nil => rfl
  | cons i defines ih => simp [readDefine_writeDefine, ih]

/-- Entries in the order of their names go one behind the other. -/
theorem foldl_insert (defines : List LogDefine) (vec : Logs)
    (h : (vec.defines ++ defines).Pairwise fun a b => a.name < b.name) :
    (defines.foldl Logs.insert vec).defines = vec.defines ++ defines := by
  induction defines generalizing vec with
  | nil => simp
  | cons i defines ih =>
    have hlast : (vec.insert i).defines = vec.defines ++ [i] := by
      apply OrderedSet.insert_last
      intro j hj
      obtain ⟨-, -, hcross⟩ := List.pairwise_append.mp h
      exact decide_eq_true (hcross j hj i (.head _))
    have hsorted : ((vec.insert i).defines ++ defines).Pairwise fun a b => a.name < b.name := by
      simpa [hlast] using h
    rw [List.foldl_cons, ih (vec.insert i) hsorted, hlast, List.append_assoc, List.singleton_append]

/-- The text of a set gives the set back but for what is not kept. -/
theorem logsOfString_stringOfLogs {yaml : YamlCpp} {v : Logs}
    (hyaml : yaml.load (yaml.emit (writeLogs v)) = some (writeLogs v)) :
    ∃ v', logsOfString yaml (stringOfLogs yaml v) = some v' ∧ v'.defines = v.defines.map kept := by
  have helements : (writeLogs v).elements = v.defines.map writeDefine := by
    rw [writeLogs]
    split
    · rename_i h
      simp [Node.elements, h]
    · rfl
  have hsorted : (v.defines.map kept).Pairwise fun a b => a.name < b.name := by
    rw [List.pairwise_map]
    exact v.sorted
  have hread : (v.defines.map fun i => some (kept i)).filterMap id = v.defines.map kept := by
    simp [List.filterMap_map]
  refine ⟨(v.defines.map kept).foldl Logs.insert .empty, ?_, ?_⟩
  · simp only [logsOfString, stringOfLogs, hyaml, helements, readDefines, Option.bind_eq_bind,
      Option.bind_some, Option.pure_def, hread]
  · exact foldl_insert _ .empty hsorted

theorem map_same_iff {α : Type*} {f : α → α} {l : List α} : l.map f = l ↔ ∀ a ∈ l, f a = a := by
  have h := List.map_inj_left (f := f) (g := id) (l := l)
  rwa [List.map_id] at h

theorem keptAppender_iff {a : LogAppenderDefine}
    (hfile : a.type = .StdoutLogAppender → a.file = "") :
    keptAppender a = a ↔
      a.level = .UNKONWING ∧ (a.type = .StdoutLogAppender → a.formatter = "") := by
  obtain ⟨type, level, formatter, file⟩ := a
  cases type with
  | FileLogAppender =>
    simp only [keptAppender, LogAppenderDefine.mk.injEq, true_and, and_true, reduceCtorEq,
      false_implies]
    exact eq_comm
  | StdoutLogAppender =>
    have hempty : file = "" := hfile rfl
    simp only [keptAppender, LogAppenderDefine.mk.injEq, true_and, hempty, and_true, forall_true_left]
    exact and_congr eq_comm eq_comm

theorem kept_iff {i : LogDefine}
    (hfile : ∀ a ∈ i.appenders, a.type = .StdoutLogAppender → a.file = "") :
    kept i = i ↔ i.level = .UNKONWING ∧ i.formatter = "" ∧ ∀ a ∈ i.appenders,
      a.level = .UNKONWING ∧ (a.type = .StdoutLogAppender → a.formatter = "") := by
  have happenders : i.appenders.map keptAppender = i.appenders ↔ ∀ a ∈ i.appenders,
      a.level = .UNKONWING ∧ (a.type = .StdoutLogAppender → a.formatter = "") := by
    rw [map_same_iff]
    exact forall₂_congr fun a ha => keptAppender_iff (hfile a ha)
  rw [← happenders]
  obtain ⟨name, level, formatter, appenders⟩ := i
  simp only [kept, LogDefine.mk.injEq, true_and]
  exact and_congr eq_comm (and_congr eq_comm Iff.rfl)

/-- A set comes back exactly when nothing in it has a level or a formatter, those of file appenders
apart. -/
theorem round_trip_iff {yaml : YamlCpp} {v : Logs}
    (hyaml : yaml.load (yaml.emit (writeLogs v)) = some (writeLogs v))
    (hfile : ∀ i ∈ v.defines, ∀ a ∈ i.appenders, a.type = .StdoutLogAppender → a.file = "") :
    logsOfString yaml (stringOfLogs yaml v) = some v ↔
      ∀ i ∈ v.defines, i.level = .UNKONWING ∧ i.formatter = "" ∧ ∀ a ∈ i.appenders,
        a.level = .UNKONWING ∧ (a.type = .StdoutLogAppender → a.formatter = "") := by
  obtain ⟨v', hv', hdefines⟩ := logsOfString_stringOfLogs hyaml
  have hsame : v' = v ↔ v.defines.map kept = v.defines := by
    rw [← hdefines]
    constructor
    · rintro rfl
      rfl
    · intro h
      cases v'
      cases v
      cases h
      rfl
  rw [hv', Option.some.injEq, hsame, map_same_iff]
  exact forall₂_congr fun i hi => kept_iff (hfile i hi)

/-- The root logger with a file. -/
def rooted (level : LogLevel) : Logs where
  defines := [⟨"root", level, "", [⟨.FileLogAppender, .UNKONWING, "%m%n", "root.txt"⟩]⟩]
  sorted := List.pairwise_singleton _ _

/-- The library on one node and its text. -/
def onText (node : Node) (text : String) : YamlCpp :=
  ⟨fun _ => text, fun s => if s = text then some node else none⟩

theorem onText_load (node : Node) (text : String) :
    (onText node text).load ((onText node text).emit node) = some node := if_pos rfl

def rootedText : String :=
  "- name: root\n  formatter: \"\"\n  appenders:\n" ++
    "    - type: FileLogAppender\n      file: root.txt\n      formatter: \"%m%n\""

def debugText : String :=
  "- name: root\n  level: DEBUG\n  formatter: \"\"\n  appenders:\n" ++
    "    - type: FileLogAppender\n      file: root.txt\n      formatter: \"%m%n\""

theorem round_trip_iff_root :
    logsOfString (onText (writeLogs (rooted .UNKONWING)) rootedText) rootedText =
      some (rooted .UNKONWING) :=
  (round_trip_iff (v := rooted .UNKONWING) (onText_load _ rootedText) (by simp [rooted])).mpr
    (by simp [rooted])

/-- The level comes back as none. -/
theorem debug_level_lost :
    logsOfString (onText (writeLogs (rooted .DEBUG)) debugText)
        (stringOfLogs (onText (writeLogs (rooted .DEBUG)) debugText) (rooted .DEBUG)) =
      some (rooted .UNKONWING) ∧ rooted .DEBUG ≠ rooted .UNKONWING := by
  constructor
  · obtain ⟨v', hv', hdefines⟩ := logsOfString_stringOfLogs (v := rooted .DEBUG)
      (onText_load _ debugText)
    rw [hv']
    cases v'
    cases hdefines
    rfl
  · decide

end LexicalCast

end CxkFramework
