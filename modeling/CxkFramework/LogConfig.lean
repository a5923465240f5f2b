import CxkFramework.Runs
import Mathlib.Data.List.AList

/-!
# The configuration of the loggers

The listener of the variable `logs` (`LogIniter`), which applies what changed between two values to
the loggers there are, and the parser of format patterns, which says whether a pattern is taken.
-/

namespace CxkFramework

/-! ## Format patterns -/

namespace LogFormat

/-- The entries of `vec` in `init`. -/
inductive Part where
  | text (nstr : List Char)
  | item (str fmt : List Char)
  deriving DecidableEq, Repr

/-- The inner loop of `init` behind a `%`: how it ends (`fmt_status`), with what it has read and the
characters that the outer loop goes on with. -/
inductive Item where
  /-- no brace -/
  | plain (str rest : List Char)
  /-- a brace that is not closed -/
  | open
  | braced (str fmt rest : List Char)
  deriving DecidableEq, Repr

def item (s : List Char) : Item :=
  let str := s.takeWhile fun c => c.isAlpha || c == '}'
  match s.drop str.length with
  | '{' :: s' =>
    let fmt := s'.takeWhile fun c => c.isAlpha || c == '{'
    match s'.drop fmt.length with
    -- `i = n - 1`, so the brace comes again
    | '}' :: rest => .braced str fmt ('}' :: rest)
    | _ => .open
  | rest => .plain str rest

/-- The text in `nstr` goes before the next part. -/
def flush (nstr : List Char) : List Part := if nstr = [] then [] else [.text nstr]

/-- The outer loop, with `m_error`. The first argument bounds the number of rounds. -/
def loop : Nat → List Char → List Char → List Part × Bool
  | _, nstr, [] => (flush nstr, false)
  | 0, nstr, _ => (flush nstr, false)
  -- only the first of the two is skipped
  | n + 1, nstr, '%' :: '%' :: s => loop n (nstr ++ ['%']) ('%' :: s)
  | n + 1, nstr, '%' :: s =>
    match item s with
    | .plain str rest =>
      let (vec, error) := loop n [] rest
      (flush nstr ++ .item str [] :: vec, error)
    | .open =>
      let (vec, _) := loop n nstr s
      (.text "<<pattern_error>>".toList :: vec, true)
    | .braced str fmt rest =>
      let (vec, error) := loop n [] rest
      (flush nstr ++ .item str fmt :: vec, error)
  | n + 1, nstr, c :: s => loop n (nstr ++ [c]) s

/-- The keys of `s_format_items`. -/
def names : List (List Char) :=
  [['m'], ['p'], ['r'], ['c'], ['t'], ['n'], ['d'], ['f'], ['l'], ['T'], ['F'], ['S'], ['N']]

def init (pattern : String) : List Part × Bool :=
  loop pattern.toList.length [] pattern.toList

def isError (pattern : String) : Bool :=
  (init pattern).2 || (init pattern).1.any fun
    | .text _ => false
    | .item str _ => !names.contains str

/-- The pattern of a new logger. -/
def default : String := "%d%T%t%T%N%T%F%T[%p]%T[%c]%T%f:%l%T%m\n"

/-- A new logger has a pattern without error; two percent signs before anything else do not. -/
example : isError default = false ∧ isError "%%" = true ∧ isError "%d{%Y}" = true := by decide

end LogFormat

/-! ## Loggers -/

inductive LogLevel where
  | UNKONWING
  | DEBUG
  | INFO
  | WARN
  | ERROR
  | FATAL
  /-- `(LogLevel::Level)100` -/
  | disabled
  deriving DecidableEq, Repr

inductive AppenderType where
  /-- 1 -/
  | FileLogAppender
  /-- 2 -/
  | StdoutLogAppender
  deriving DecidableEq, Repr

structure LogAppender where
  type : AppenderType
  file : String
  level : LogLevel
  hasFormat : Bool
  format : Option String
  deriving DecidableEq, Repr

namespace LogAppender

/-- A `FileAppender` or a `StdOutAppender`. -/
def create (type : AppenderType) (file : String) : LogAppender :=
  ⟨type, if type = .FileLogAppender then file else "", .DEBUG, false, none⟩

def setFormat (format : String) (a : LogAppender) : LogAppender :=
  { a with format := some format, hasFormat := true }

/-- The formatter that was set for this appender. -/
def own (a : LogAppender) : Option String := if a.hasFormat then a.format else none

end LogAppender

structure Logger where
  level : LogLevel
  appenders : List LogAppender
  /-- the pattern of `m_format` -/
  format : String
  deriving DecidableEq, Repr

namespace Logger

def create : Logger := ⟨.DEBUG, [], LogFormat.default⟩

def setLogLevel (level : LogLevel) (l : Logger) : Logger := { l with level := level }

/-- `setFormatter`; a pattern with an error is left out. -/
def setFormatter (val : String) (l : Logger) : Logger :=
  if LogFormat.isError val then l
  else
    { l with
      format := val
      appenders := l.appenders.map fun a => if a.hasFormat then a else { a with format := some val } }

def clearAppenders (l : Logger) : Logger := { l with appenders := [] }

def addAppender (l : Logger) (a : LogAppender) : Logger :=
  let a := if a.format = none then { a with format := some l.format } else a
  { l with appenders := l.appenders ++ [a] }

end Logger

/-! ## The listener -/

structure LogAppenderDefine where
  type : AppenderType
  level : LogLevel
  formatter : String
  file : String
  deriving DecidableEq, Repr

structure LogDefine where
  name : String
  level : LogLevel
  formatter : String
  appenders : List LogAppenderDefine
  deriving DecidableEq, Repr

/-- A `std::set<LogDefine>`, ordered by the names. -/
structure Logs where
  defines : List LogDefine
  sorted : defines.Pairwise fun a b => a.name < b.name
  deriving DecidableEq, Repr

namespace Logs

def empty : Logs := ⟨[], .nil⟩

/-- `find`, which compares names. -/
def find (logs : Logs) (name : String) : Option LogDefine :=
  logs.defines.find? fun i => i.name == name

end Logs

/-- `m_value` of the variable, `m_logger` of the manager, and the names in the values so far. -/
structure LogConfig where
  value : Logs
  loggers : AList fun _ : String => Logger
  named : List String

namespace LogConfig

open Runs

def create : LogConfig := ⟨.empty, ∅, []⟩

/-- `CXK_LOG_NAME`, which makes the logger if there is none. -/
def getLogger (s : LogConfig) (name : String) : Logger := (s.loggers.lookup name).getD .create

/-- The logger is changed. -/
def update (s : LogConfig) (name : String) (f : Logger → Logger) : LogConfig :=
  { s with loggers := s.loggers.insert name (f (s.getLogger name)) }

/-- The appender for an entry of the configuration. -/
def appender (a : LogAppenderDefine) : LogAppender :=
  let ap := { LogAppender.create a.type a.file with level := a.level }
  if a.formatter ≠ "" ∧ LogFormat.isError a.formatter = false then ap.setFormat a.formatter else ap

/-- What the listener does to a logger that is new or changed. -/
def configure (i : LogDefine) (l : Logger) : Logger :=
  let l := l.setLogLevel i.level
  let l := if i.formatter ≠ "" then l.setFormatter i.formatter else l
  i.appenders.foldl (fun l a => l.addAppender (appender a)) l.clearAppenders

/-- And to one that is gone. -/
def disable (l : Logger) : Logger := (l.setLogLevel .disabled).clearAppenders

/-- The listener. -/
def onChange (s : LogConfig) (old new : Logs) : LogConfig :=
  let s := new.defines.foldl (fun s i =>
    if old.find i.name ≠ some i then s.update i.name (configure i) else s) s
  old.defines.foldl (fun s i =>
    if new.find i.name = none then s.update i.name disable else s) s

/-- `ConfigVar::setValue`, which leaves an equal value alone. -/
def setValue (s : LogConfig) (v : Logs) : LogConfig :=
  if v = s.value then s
  else
    { s.onChange s.value v with
      value := v
      named := s.named ++ v.defines.map (·.name) }

/-- What the configuration sets: level, pattern, and the appenders with type, file, level and own
formatter. -/
def observe (l : Logger) :
    LogLevel × String × List (AppenderType × String × LogLevel × Option String) :=
  (l.level, l.format, l.appenders.map fun a => (a.type, a.file, a.level, a.own))

/-- The loggers are those that the present value makes of fresh ones, and those named in earlier
values only are disabled. -/
structure Current (s : LogConfig) : Prop where
  configured : ∀ i ∈ s.value.defines,
    observe (s.getLogger i.name) = observe ((create.setValue s.value).getLogger i.name)
  disabled : ∀ name ∈ s.named, s.value.find name = none →
    (s.getLogger name).level = .disabled ∧ (s.getLogger name).appenders = []

/-- The entry sets a formatter. -/
def setsFormatter (i : LogDefine) : Bool := i.formatter != "" && !LogFormat.isError i.formatter

/-- Every logger that is new or changed gets a formatter or still has the one it started with. -/
def Reset (s : LogConfig) (v : Logs) : Prop :=
  ∀ i ∈ v.defines, s.value.find i.name ≠ some i →
    setsFormatter i = true ∨ (s.getLogger i.name).format = LogFormat.default

/-! ## What one value does -/

section Loggers

variable {s : LogConfig} {i : LogDefine} {l : Logger} {v : Logs}

theorem getLogger_update (s : LogConfig) (name : String) (f : Logger → Logger) (n : String) :
    (s.update name f).getLogger n = if n = name then f (s.getLogger name) else s.getLogger n := by
  by_cases h : n = name
  · rw [if_pos h, h, getLogger, update, AList.lookup_insert, Option.getD_some]
  · rw [if_neg h, getLogger, update, AList.lookup_insert_ne h, getLogger]

/-- A loop over entries with different names changes each logger once. -/
theorem getLogger_foldl (c : LogDefine → Prop) [DecidablePred c] (f : LogDefine → Logger → Logger)
    (defines : List LogDefine) (hnames : defines.Pairwise fun a b => a.name < b.name)
    (s : LogConfig) (n : String) :
    (defines.foldl (fun s i => if c i then s.update i.name (f i) else s) s).getLogger n =
      match defines.find? fun i => i.name == n with
      | some i => if c i then f i (s.getLogger n) else s.getLogger n
      | none => s.getLogger n := by
  induction defines generalizing s with
  | nil => rfl
  | cons i defines ih =>
    obtain ⟨hfirst, hrest⟩ := List.pairwise_cons.mp hnames
    rw [List.foldl_cons, ih hrest]
    by_cases hn : i.name = n
    · have hnone : (defines.find? fun i => i.name == n) = none := by
        rw [List.find?_eq_none]
        intro j hj hjn
        have hlt := hfirst j hj
        rw [hn, beq_iff_eq.mp hjn] at hlt
        exact String.lt_irrefl n hlt
      have hbeq : (i.name == n) = true := beq_iff_eq.mpr hn
      simp only [List.find?_cons, hbeq, hnone]
      by_cases hc : c i
      · simp only [hc, if_true, getLogger_update, hn]
      · simp only [hc, if_false]
    · have hsame : (if c i then s.update i.name (f i) else s).getLogger n = s.getLogger n := by
        split
        · rw [getLogger_update, if_neg fun h => hn h.symm]
        · rfl
      have hbeq : (i.name == n) = false := beq_eq_false_iff_ne.mpr hn
      simp only [List.find?_cons, hbeq, hsame]

theorem find_mem {name : String} (h : v.find name = some i) : i ∈ v.defines ∧ i.name = name := by
  have hfind : v.defines.find? (fun j => j.name == name) = some i := h
  have hname := List.find?_some hfind
  exact ⟨List.mem_of_find?_eq_some hfind, beq_iff_eq.mp hname⟩

theorem find_eq_some (h : i ∈ v.defines) : v.find i.name = some i := by
  have hpair := v.sorted
  rw [Logs.find]
  generalize v.defines = defines at h hpair
  induction defines with
  | nil => cases h
  | cons j defines ih =>
    obtain ⟨hfirst, hrest⟩ := List.pairwise_cons.mp hpair
    rw [List.find?_cons]
    cases h with
    | head => rw [beq_self_eq_true]
    | tail _ hmem =>
      have hne : (j.name == i.name) = false := by
        apply beq_eq_false_iff_ne.mpr
        intro heq
        have hlt := hfirst i hmem
        rw [heq] at hlt
        exact String.lt_irrefl _ hlt
      rw [hne]
      exact ih hmem hrest

/-- The loggers behind the listener. -/
theorem getLogger_onChange (s : LogConfig) (old new : Logs) (n : String) :
    (s.onChange old new).getLogger n =
      match new.find n with
      | some i => if old.find n ≠ some i then configure i (s.getLogger n) else s.getLogger n
      | none => if old.find n ≠ none then disable (s.getLogger n) else s.getLogger n := by
  have hnew : ∀ s : LogConfig, (new.defines.foldl (fun s i =>
      if old.find i.name ≠ some i then s.update i.name (configure i) else s) s).getLogger n =
      match new.find n with
      | some i => if old.find i.name ≠ some i then configure i (s.getLogger n) else s.getLogger n
      | none => s.getLogger n :=
    fun s => getLogger_foldl (fun i => old.find i.name ≠ some i) configure _ new.sorted s n
  have hold : ∀ s : LogConfig, (old.defines.foldl (fun s i =>
      if new.find i.name = none then s.update i.name disable else s) s).getLogger n =
      match old.find n with
      | some i => if new.find i.name = none then disable (s.getLogger n) else s.getLogger n
      | none => s.getLogger n :=
    fun s => getLogger_foldl (fun i => new.find i.name = none) (fun _ => disable) _ old.sorted s n
  rw [onChange, hold, hnew]
  cases hfound : new.find n with
  | none =>
    cases hfound' : old.find n with
    | none => rfl
    | some j =>
      obtain ⟨-, hj⟩ := find_mem hfound'
      simp [hj, hfound]
  | some i =>
    obtain ⟨-, hi⟩ := find_mem hfound
    cases hfound' : old.find n with
    | none => simp [hi, hfound']
    | some j =>
      obtain ⟨-, hj⟩ := find_mem hfound'
      simp [hi, hj, hfound, hfound']

theorem foldl_addAppender (as : List LogAppenderDefine) (l : Logger) :
    observe (as.foldl (fun l a => l.addAppender (appender a)) l) =
      (l.level, l.format, (l.appenders.map fun a => (a.type, a.file, a.level, a.own)) ++
        (as.map appender).map fun a => (a.type, a.file, a.level, a.own)) := by
  induction as generalizing l with
  | nil => simp [observe]
  | cons a as ih =>
    have hown : ∀ b : LogAppender, (b.format = none → b.hasFormat = false) →
        ∀ f, LogAppender.own (if b.format = none then { b with format := some f } else b) =
          b.own := by
      intro b hb f
      split
      · rename_i hnone
        simp [LogAppender.own, hb hnone]
      · rfl
    have happender : (appender a).format = none → (appender a).hasFormat = false := by
      rw [appender]
      split
      · intro h
        cases h
      · intro _
        rfl
    rw [List.foldl_cons, ih]
    simp only [Logger.addAppender, List.map_append, List.map_cons, List.map_nil,
      List.append_assoc, List.singleton_append, hown (appender a) happender]
    split <;> rfl

/-- What is configured depends on the logger only when no formatter is set. -/
theorem observe_configure (i : LogDefine) (l : Logger) :
    observe (configure i l) =
      (i.level, if setsFormatter i then i.formatter else l.format,
        (i.appenders.map appender).map fun a => (a.type, a.file, a.level, a.own)) := by
  rw [configure, foldl_addAppender]
  by_cases hempty : i.formatter = ""
  · simp [setsFormatter, hempty, Logger.setLogLevel, Logger.clearAppenders]
  · by_cases herror : LogFormat.isError i.formatter = true <;>
      simp [setsFormatter, hempty, herror, Logger.setLogLevel, Logger.clearAppenders,
        Logger.setFormatter]

/-- The first value makes its loggers from scratch. -/
theorem getLogger_fresh (h : i ∈ v.defines) :
    (create.setValue v).getLogger i.name = configure i .create := by
  have hv : v ≠ create.value := by
    rintro rfl
    cases h
  have hcreate : create.getLogger i.name = .create := rfl
  rw [setValue, if_neg hv]
  change (create.onChange create.value v).getLogger i.name = _
  rw [getLogger_onChange, find_eq_some h, hcreate]
  exact if_pos fun h => by cases h

theorem getLogger_setValue (h : v ≠ s.value) (n : String) :
    (s.setValue v).getLogger n = (s.onChange s.value v).getLogger n := by
  rw [setValue, if_neg h]
  rfl

/-- One value keeps the loggers right exactly when no formatter stays behind. -/
theorem current_setValue_iff (hs : Current s) : Current (s.setValue v) ↔ Reset s v := by
  by_cases hv : v = s.value
  · have hsame : s.setValue v = s := if_pos hv
    rw [hsame]
    apply iff_of_true hs
    intro i hi hne
    rw [hv] at hi
    exact absurd (find_eq_some hi) hne
  · have hvalue : (s.setValue v).value = v := by rw [setValue, if_neg hv]
    have hchanged : ∀ i ∈ v.defines, s.value.find i.name ≠ some i →
        (observe ((s.setValue v).getLogger i.name) =
          observe ((create.setValue v).getLogger i.name) ↔
          setsFormatter i = true ∨ (s.getLogger i.name).format = LogFormat.default) := by
      intro i hi hne
      rw [getLogger_setValue hv, getLogger_onChange, find_eq_some hi, getLogger_fresh hi]
      simp only [hne, ne_eq, not_false_eq_true, if_true, observe_configure, Prod.mk.injEq, and_true,
        true_and]
      cases setsFormatter i <;> simp [Logger.create]
    constructor
    · intro hcurrent i hi hne
      have hconfigured := hcurrent.configured
      rw [hvalue] at hconfigured
      exact (hchanged i hi hne).mp (hconfigured i hi)
    · intro hreset
      constructor
      · rw [hvalue]
        intro i hi
        by_cases hfind : s.value.find i.name = some i
        · have hmem := (find_mem hfind).1
          have hbefore := hs.configured i hmem
          rw [getLogger_fresh hmem] at hbefore
          rw [getLogger_setValue hv, getLogger_onChange, find_eq_some hi, getLogger_fresh hi]
          simpa [hfind] using hbefore
        · exact (hchanged i hi hfind).mpr (hreset i hi hfind)
      · intro name hname hnone
        rw [hvalue] at hnone
        have hnamed : name ∈ s.named := by
          rw [setValue, if_neg hv, List.mem_append] at hname
          cases hname with
          | inl h => exact h
          | inr h =>
            obtain ⟨i, hi, rfl⟩ := List.mem_map.mp h
            rw [find_eq_some hi] at hnone
            cases hnone
        rw [getLogger_setValue hv, getLogger_onChange, hnone]
        by_cases hold : s.value.find name = none
        · simpa [hold] using hs.disabled name hnamed hold
        · simp [hold, disable, Logger.setLogLevel, Logger.clearAppenders]

/-- The loggers follow the present value exactly as long as no formatter stays behind. -/
theorem run_current_iff {t : List (Logs × LogConfig)}
    (run : Run (fun s v s' => s.setValue v = s') create t) :
    Always Current create t ↔ Meets Reset create t := by
  have hcreate : Current create := by
    constructor
    · intro i hi
      cases hi
    · intro name hname
      cases hname
  apply always_iff_meets (fun _ => True) Current Reset (fun _ _ _ _ _ _ => trivial) ?_ run trivial
    hcreate
  rintro s v s' - hs rfl
  exact current_setValue_iff hs

end Loggers

/-- One logger that writes to the console. -/
def only (level : LogLevel) (formatter : String) : Logs where
  defines := [⟨"a", level, formatter, [⟨.StdoutLogAppender, .UNKONWING, "", ""⟩]⟩]
  sorted := List.pairwise_singleton _ _

/-- The formatter of the first value stays when the second has none. -/
theorem run_formatter_breaks_current :
    ∃ t, Run (fun s v s' => s.setValue v = s') create t ∧
      t.map (·.1) = [only .INFO "%m", only .INFO ""] ∧
      ((Runs.last create t).getLogger "a").format = "%m" ∧ ¬Always Current create t := by
  refine ⟨_, .cons (a := only .INFO "%m") rfl (.cons (a := only .INFO "") rfl (.nil _)), rfl,
    by decide, ?_⟩
  intro h
  have hpattern := congrArg (fun o => o.2.1) (h.last.configured _ (.head _))
  revert hpattern
  decide

/-- Formatters that come and change, and a logger that goes. -/
theorem run_current_changes :
    ∃ t, Run (fun s v s' => s.setValue v = s') create t ∧
      t.map (·.1) = [only .INFO "", only .WARN "%m", .empty] ∧ Always Current create t := by
  have run : Run (fun s v s' => s.setValue v = s') create _ :=
    .cons (a := only .INFO "") rfl (.cons (a := only .WARN "%m") rfl
      (.cons (a := .empty) rfl (.nil _)))
  refine ⟨_, run, rfl, (run_current_iff run).mpr ⟨?_, ?_, ?_, trivial⟩⟩
  · intro i hi _
    cases List.mem_singleton.mp hi
    exact .inr rfl
  · intro i hi _
    cases List.mem_singleton.mp hi
    exact .inl (by decide)
  · intro i hi
    cases hi


end LogConfig

end CxkFramework
