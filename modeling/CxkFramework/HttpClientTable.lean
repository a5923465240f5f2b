import CxkFramework.ScannerTable

/-!
# The states of the HTTP response machine

The machine that ragel makes of `httpclient_parser.rl`, taken from `httpclient_parser.rl.cpp`: a
response head, or the line in front of a chunk. States 120 to 123 are final.
-/

namespace CxkFramework.HttpClientParser

open Scanner

/-- The actions of the grammar. -/
inductive Action where
  | mark | startField | writeField | startValue | writeContentLen | writeConnectionClose | writeValue
  | reasonPhrase | statusCode | httpVersion | chunkSize | transChunked | done
  deriving DecidableEq, Repr

/-- `goto st`. -/
def st (lo hi next : Nat) : Edge Action := ⟨lo, hi, next, []⟩

/-- `goto tr`. -/
def tr (lo hi next : Nat) (actions : List Action) : Edge Action := ⟨lo, hi, next, actions⟩

/-- An upper case letter and the lower case one. -/
def either (letter next : Nat) (actions : List Action) : List (Edge Action) :=
  [tr letter letter next actions, tr (letter + 32) (letter + 32) next actions]

/-- `token`, behind the edges that are in front of it. -/
def token (next : Nat) (actions : List Action) : List (Edge Action) :=
  [tr 33 33 next actions, tr 35 39 next actions, tr 42 43 next actions, tr 45 46 next actions,
    tr 48 57 next actions, tr 65 90 next actions, tr 94 122 next actions, tr 124 124 next actions,
    tr 126 126 next actions]

/-- `any`, behind the edges that are in front of it. -/
def any (next : Nat) (actions : List Action) : List (Edge Action) := [tr 0 255 next actions]

/-- In a field name that may still be one of the three known ones. -/
def name (letter next : Nat) : List (Edge Action) :=
  [tr 58 58 22 [.writeField]] ++ either letter next [] ++ token 21 []

/-- In a field value that may still be `close` or `chunked`. -/
def value (letter next : Nat) : List (Edge Action) :=
  [tr 10 10 20 [.writeValue], tr 13 13 24 [.writeValue]] ++ either letter next [] ++ any 23 []

/-- `httpclient_parser_start`. -/
def start : Nat := 1

/-- `httpclient_parser_first_final`. -/
def firstFinal : Nat := 120

/-- The transitions of the states from 0 on. -/
def table : List (List (Edge Action)) := [
  -- 0 to 9
  [],
  [tr 48 57 2 [.mark], tr 65 70 2 [.mark], tr 72 72 8 [.mark], tr 97 102 2 [.mark]],
  [tr 10 10 120 [.chunkSize, .done], tr 13 13 3 [.chunkSize], st 48 57 2, tr 59 59 4 [.chunkSize],
    st 65 70 2, st 97 102 2],
  [tr 10 10 120 [.done]],
  token 5 [.startField],
  [tr 10 10 120 [.writeField, .startValue, .writeValue, .done],
    tr 13 13 3 [.writeField, .startValue, .writeValue],
    tr 59 59 4 [.writeField, .startValue, .writeValue], tr 61 61 6 [.writeField, .startValue]]
    ++ token 5 [],
  token 7 [.startValue],
  [tr 10 10 120 [.writeValue, .done], tr 13 13 3 [.writeValue], tr 59 59 4 [.writeValue]]
    ++ token 7 [],
  [st 84 84 9],
  [st 84 84 10],
  -- 10 to 19
  [st 80 80 11],
  [st 47 47 12],
  [st 48 57 13],
  [st 46 46 14, st 48 57 13],
  [st 48 57 15],
  [tr 32 32 16 [.httpVersion], st 48 57 15],
  [tr 48 57 17 [.mark]],
  [tr 32 32 18 [.statusCode], st 48 57 17],
  [tr 0 9 19 [.mark], tr 11 255 19 [.mark]],
  [tr 10 10 20 [.reasonPhrase], tr 13 13 24 [.reasonPhrase]] ++ any 19 [],
  -- 20 to 29
  [tr 10 10 120 [.done], st 13 13 3] ++ either 67 25 [.startField] ++ either 84 44 [.startField]
    ++ token 21 [.startField],
  [tr 58 58 22 [.writeField]] ++ token 21 [],
  [tr 9 9 22 [.startValue], tr 10 10 20 [.startValue, .writeValue], tr 11 12 22 [.startValue],
    tr 13 13 24 [.startValue, .writeValue], tr 32 32 22 [.startValue]] ++ any 23 [.startValue],
  [tr 10 10 20 [.writeValue], tr 13 13 24 [.writeValue]] ++ any 23 [],
  [st 10 10 20],
  name 79 26,
  name 78 27,
  [tr 58 58 22 [.writeField]] ++ either 78 28 [] ++ either 84 101 [] ++ token 21 [],
  name 69 29,
  name 67 30,
  -- 30 to 39
  name 84 31,
  name 73 32,
  name 79 33,
  name 78 34,
  [tr 58 58 35 [.writeField]] ++ token 21 [],
  [tr 9 9 35 [.startValue], tr 10 10 36 [.startValue, .writeValue], tr 11 12 35 [.startValue],
    tr 13 13 95 [.startValue, .writeValue], tr 32 32 35 [.startValue]]
    ++ either 67 96 [.startValue] ++ any 23 [.startValue],
  [st 9 9 37, tr 10 10 122 [.done], st 11 12 37, st 13 13 89, st 32 32 37]
    ++ either 67 90 [.startField] ++ either 84 44 [.startField] ++ token 21 [.startField],
  [st 9 13 37, st 32 32 37] ++ either 67 38 [],
  either 76 39 [],
  either 79 40 [],
  -- 40 to 49
  either 83 41 [],
  either 69 42 [],
  [st 10 10 43, st 13 13 88],
  [tr 10 10 120 [.writeConnectionClose, .done], tr 13 13 3 [.writeConnectionClose]]
    ++ either 67 25 [.writeConnectionClose, .startField]
    ++ either 84 44 [.writeConnectionClose, .startField]
    ++ token 21 [.writeConnectionClose, .startField],
  name 82 45,
  name 65 46,
  name 78 47,
  name 83 48,
  name 70 49,
  name 69 50,
  -- 50 to 59
  name 82 51,
  [st 45 45 52, tr 58 58 22 [.writeField]] ++ token 21 [],
  name 69 53,
  name 78 54,
  name 67 55,
  name 79 56,
  name 68 57,
  name 73 58,
  name 78 59,
  name 71 60,
  -- 60 to 69
  [tr 58 58 61 [.writeField]] ++ token 21 [],
  [tr 9 9 61 [.startValue], tr 10 10 62 [.startValue, .writeValue], tr 11 12 61 [.startValue],
    tr 13 13 80 [.startValue, .writeValue], tr 32 32 61 [.startValue]]
    ++ either 67 81 [.startValue] ++ any 23 [.startValue],
  [st 9 9 63, tr 10 10 121 [.done], st 11 12 63, st 13 13 72, st 32 32 63]
    ++ either 67 73 [.startValue, .startField] ++ either 84 44 [.startField]
    ++ token 21 [.startField],
  [st 9 13 63, st 32 32 63] ++ either 67 64 [.startValue],
  either 72 65 [],
  either 85 66 [],
  either 78 67 [],
  either 75 68 [],
  either 69 69 [],
  either 68 70 [],
  -- 70 to 79
  [tr 10 10 20 [.writeValue, .transChunked], tr 13 13 71 [.writeValue]],
  [tr 10 10 20 [.transChunked]],
  [st 9 9 63, tr 10 10 121 [.done], st 11 13 63, st 32 32 63] ++ either 67 64 [.startValue],
  [tr 58 58 22 [.writeField]] ++ either 72 74 [] ++ either 79 26 [] ++ token 21 [],
  name 85 75,
  name 78 76,
  name 75 77,
  name 69 78,
  name 68 79,
  [tr 10 10 20 [.writeValue, .transChunked], tr 13 13 71 [.writeValue], tr 58 58 22 [.writeField]]
    ++ token 21 [],
  -- 80 to 89
  [st 9 9 63, st 10 10 62, st 11 13 63, st 32 32 63] ++ either 67 64 [.startValue],
  value 72 82,
  value 85 83,
  value 78 84,
  value 75 85,
  value 69 86,
  value 68 87,
  [tr 10 10 20 [.writeValue, .transChunked], tr 13 13 71 [.writeValue]] ++ any 23 [],
  [st 10 10 43],
  [st 9 9 37, tr 10 10 122 [.done], st 11 13 37, st 32 32 37] ++ either 67 38 [],
  -- 90 to 99
  [tr 58 58 22 [.writeField]] ++ either 76 91 [] ++ either 79 26 [] ++ token 21 [],
  name 79 92,
  name 83 93,
  name 69 94,
  [st 10 10 43, st 13 13 88, tr 58 58 22 [.writeField]] ++ token 21 [],
  [st 9 9 37, st 10 10 36, st 11 13 37, st 32 32 37] ++ either 67 38 [],
  value 76 97,
  value 79 98,
  value 83 99,
  value 69 100,
  -- 100 to 109
  [tr 10 10 43 [.writeValue], tr 13 13 88 [.writeValue]] ++ any 23 [],
  name 69 102,
  name 78 103,
  name 84 104,
  [st 45 45 105, tr 58 58 22 [.writeField]] ++ token 21 [],
  name 76 106,
  name 69 107,
  name 78 108,
  name 71 109,
  name 84 110,
  -- 110 to 119
  name 72 111,
  [tr 58 58 112 [.writeField]] ++ token 21 [],
  [tr 9 9 112 [.startValue], tr 10 10 113 [.startValue, .writeValue], tr 11 12 112 [.startValue],
    tr 13 13 118 [.startValue, .writeValue], tr 32 32 112 [.startValue],
    tr 48 57 119 [.startValue]] ++ any 23 [.startValue],
  [st 9 9 114, tr 10 10 123 [.done], st 11 12 114, st 13 13 116, st 32 32 114,
    tr 48 57 117 [.startValue, .startField]] ++ either 67 25 [.startField]
    ++ either 84 44 [.startField] ++ token 21 [.startField],
  [st 9 13 114, st 32 32 114, tr 48 57 115 [.startValue]],
  [tr 10 10 20 [.writeContentLen, .writeValue], tr 13 13 24 [.writeContentLen, .writeValue],
    st 48 57 115],
  [st 9 9 114, tr 10 10 123 [.done], st 11 13 114, st 32 32 114, tr 48 57 115 [.startValue]],
  [tr 10 10 20 [.writeContentLen, .writeValue], tr 13 13 24 [.writeContentLen, .writeValue],
    st 48 57 117, tr 58 58 22 [.writeField]] ++ token 21 [],
  [st 9 9 114, st 10 10 113, st 11 13 114, st 32 32 114, tr 48 57 115 [.startValue]],
  [tr 10 10 20 [.writeContentLen, .writeValue], tr 13 13 24 [.writeContentLen, .writeValue],
    st 48 57 119] ++ any 23 [],
  -- 120 to 123
  [],
  [st 9 13 63, st 32 32 63] ++ either 67 64 [.startValue],
  [st 9 13 37, st 32 32 37] ++ either 67 38 [],
  [st 9 13 114, st 32 32 114, tr 48 57 115 [.startValue]]]

/-- The machine; `done` leaves it with `fbreak`. -/
def machine : Machine Nat Action := ofTable table (· == .done)

end CxkFramework.HttpClientParser
