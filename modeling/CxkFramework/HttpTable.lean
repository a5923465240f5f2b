import CxkFramework.Scanner

/-!
# The states of the HTTP request machine

The machine that ragel makes of `http11_parser.rl`, taken from `http11_parser.rl.cpp`: for each
state the ranges of bytes it goes on with, the state it goes to and the actions on the way.
A byte in no range leads to the error state 0.
-/

namespace CxkFramework.HttpParser

open Scanner

/-- The actions of the grammar. -/
inductive Action where
  | mark | startField | writeField | startValue | writeValue
  | requestMethod | requestUri | fragment | startQuery | queryString
  | httpVersion | requestPath | done | xml | json
  deriving DecidableEq, Repr

/-- A transition for the bytes from `lo` to `hi`. `relaxed` ones need `uri_relaxed`. -/
structure Edge where
  lo : Nat
  hi : Nat
  next : Nat
  actions : List Action
  relaxed : Bool
  deriving DecidableEq, Repr

/-- `goto st`. -/
def st (lo hi next : Nat) : Edge := ⟨lo, hi, next, [], false⟩

/-- `goto tr`. -/
def tr (lo hi next : Nat) (actions : List Action) : Edge := ⟨lo, hi, next, actions, false⟩

/-- `more_delims`: a circumflex and the two braces. -/
def delims (next : Nat) (actions : List Action) : List Edge :=
  [⟨94, 94, next, actions, true⟩, ⟨123, 123, next, actions, true⟩,
    ⟨125, 125, next, actions, true⟩]

/-- `http_parser_start`. -/
def start : Nat := 1

/-- `http_parser_first_final`. -/
def firstFinal : Nat := 348

/-- The transitions of the states from 0 on. -/
def table : List (List Edge) := [
  -- 0 to 9
  [],
  [tr 48 57 2 [.mark], tr 60 60 194 [.mark], tr 64 64 198 [.mark], tr 65 90 2 [.mark]],
  [tr 32 32 3 [.requestMethod], st 48 57 175, st 65 90 175],
  [tr 32 32 4 [.mark, .requestPath, .requestUri], tr 33 33 19 [.mark],
    tr 35 35 20 [.mark, .requestPath, .requestUri], tr 36 36 19 [.mark], tr 37 37 24 [.mark],
    tr 38 46 19 [.mark], tr 47 47 33 [.mark], tr 48 57 19 [.mark], tr 59 59 19 [.mark],
    tr 61 61 19 [.mark], tr 63 63 29 [.mark, .requestPath], tr 64 64 19 [.mark],
    tr 65 90 173 [.mark], tr 95 95 19 [.mark], tr 97 122 173 [.mark], tr 126 126 19 [.mark]]
    ++ delims 19 [.mark],
  [tr 72 72 5 [.mark]],
  [st 84 84 6],
  [st 84 84 7],
  [st 80 80 8],
  [st 47 47 9],
  [st 49 49 10],
  -- 10 to 19
  [st 46 46 11],
  [st 48 49 12],
  [tr 10 10 13 [.httpVersion], tr 13 13 17 [.httpVersion]],
  [tr 1 8 14 [.startField], tr 10 10 348 [.startField, .done], tr 11 12 14 [.startField],
    tr 13 13 18 [.startField], tr 14 31 14 [.startField], tr 33 33 14 [.startField],
    tr 35 39 14 [.startField], tr 42 43 14 [.startField], tr 45 46 14 [.startField],
    tr 48 57 14 [.startField], tr 65 90 14 [.startField], tr 94 122 14 [.startField],
    tr 124 124 14 [.startField], tr 126 126 14 [.startField]],
  [st 1 8 14, st 10 31 14, st 33 33 14, st 35 39 14, st 42 43 14, st 45 46 14, st 48 57 14,
    tr 58 58 15 [.writeField], st 65 90 14, st 94 122 14, st 124 124 14, st 126 126 14],
  [tr 1 8 16 [.startValue], tr 9 9 15 [.startValue], tr 10 10 13 [.startValue, .writeValue],
    tr 11 12 16 [.startValue], tr 13 13 17 [.startValue, .writeValue], tr 14 31 16 [.startValue],
    tr 32 32 15 [.startValue], tr 33 126 16 [.startValue], tr 128 255 16 [.startValue]],
  [st 1 9 16, tr 10 10 13 [.writeValue], st 11 12 16, tr 13 13 17 [.writeValue], st 14 126 16,
    st 128 255 16],
  [st 10 10 13],
  [st 1 8 14, tr 10 10 348 [.done], st 11 31 14, st 33 33 14, st 35 39 14, st 42 43 14,
    st 45 46 14, st 48 57 14, tr 58 58 15 [.writeField], st 65 90 14, st 94 122 14, st 124 124 14,
    st 126 126 14],
  [tr 32 32 4 [.requestPath, .requestUri], st 33 33 19, tr 35 35 20 [.requestPath, .requestUri],
    st 36 36 19, st 37 37 24, st 38 46 19, st 47 47 26, st 48 57 19, st 59 59 19, st 61 61 19,
    tr 63 63 29 [.requestPath], st 64 90 19, st 95 95 19, st 97 122 19, st 126 126 19]
    ++ delims 19 [],
  -- 20 to 29
  [tr 32 32 4 [.mark, .fragment], tr 33 33 21 [.mark], tr 36 36 21 [.mark], tr 37 37 22 [.mark],
    tr 38 59 21 [.mark], tr 61 61 21 [.mark], tr 63 90 21 [.mark], tr 95 95 21 [.mark],
    tr 97 122 21 [.mark], tr 126 126 21 [.mark]] ++ delims 21 [.mark],
  [tr 32 32 4 [.fragment], st 33 33 21, st 36 36 21, st 37 37 22, st 38 59 21, st 61 61 21,
    st 63 90 21, st 95 95 21, st 97 122 21, st 126 126 21] ++ delims 21 [],
  [st 48 57 23, st 65 70 23, st 97 102 23],
  [st 48 57 21, st 65 70 21, st 97 102 21],
  [st 48 57 25, st 65 70 25, st 97 102 25],
  [st 48 57 19, st 65 70 19, st 97 102 19],
  [tr 32 32 4 [.requestPath, .requestUri], st 33 33 26, tr 35 35 20 [.requestPath, .requestUri],
    st 36 36 26, st 37 37 27, st 38 59 26, st 61 61 26, tr 63 63 29 [.requestPath], st 64 90 26,
    st 95 95 26, st 97 122 26, st 126 126 26] ++ delims 26 [],
  [st 48 57 28, st 65 70 28, st 97 102 28],
  [st 48 57 26, st 65 70 26, st 97 102 26],
  [tr 32 32 4 [.startQuery, .queryString, .requestUri], tr 33 33 30 [.startQuery],
    tr 35 35 20 [.startQuery, .queryString, .requestUri], tr 36 36 30 [.startQuery],
    tr 37 37 31 [.startQuery], tr 38 59 30 [.startQuery], tr 61 61 30 [.startQuery],
    tr 63 90 30 [.startQuery], tr 95 95 30 [.startQuery], tr 97 122 30 [.startQuery],
    tr 126 126 30 [.startQuery]] ++ delims 30 [.startQuery],
  -- 30 to 39
  [tr 32 32 4 [.queryString, .requestUri], st 33 33 30, tr 35 35 20 [.queryString, .requestUri],
    st 36 36 30, st 37 37 31, st 38 59 30, st 61 61 30, st 63 90 30, st 95 95 30, st 97 122 30,
    st 126 126 30] ++ delims 30 [],
  [st 48 57 32, st 65 70 32, st 97 102 32],
  [st 48 57 30, st 65 70 30, st 97 102 30],
  [tr 32 32 4 [.requestPath, .requestUri], st 33 33 26, tr 35 35 20 [.requestPath, .requestUri],
    st 36 36 26, st 37 37 27, st 38 46 26, st 47 47 34, st 48 59 26, st 61 61 26,
    tr 63 63 29 [.requestPath], st 64 90 26, st 95 95 26, st 97 122 26, st 126 126 26]
    ++ delims 26 [],
  [tr 32 32 4 [.requestPath, .requestUri], st 33 33 35, tr 35 35 20 [.requestPath, .requestUri],
    st 36 36 35, st 37 37 36, st 38 46 35, st 47 47 26, st 48 57 35, st 58 58 38, st 59 59 35,
    st 61 61 35, tr 63 63 29 [.requestPath], st 64 64 42, st 65 90 35, st 91 91 47, st 95 95 35,
    st 97 122 35, st 126 126 35] ++ delims 35 [],
  [tr 32 32 4 [.requestPath, .requestUri], st 33 33 35, tr 35 35 20 [.requestPath, .requestUri],
    st 36 36 35, st 37 37 36, st 38 46 35, st 47 47 26, st 48 57 35, st 58 58 38, st 59 59 35,
    st 61 61 35, tr 63 63 29 [.requestPath], st 64 64 42, st 65 90 35, st 95 95 35, st 97 122 35,
    st 126 126 35] ++ delims 35 [],
  [st 48 57 37, st 65 70 37, st 97 102 37],
  [st 48 57 35, st 65 70 35, st 97 102 35],
  [tr 32 32 4 [.requestPath, .requestUri], st 33 33 39, tr 35 35 20 [.requestPath, .requestUri],
    st 36 36 39, st 37 37 40, st 38 46 39, st 47 47 26, st 48 57 38, st 58 59 39, st 61 61 39,
    tr 63 63 29 [.requestPath], st 64 64 42, st 65 90 39, st 95 95 39, st 97 122 39, st 126 126 39]
    ++ delims 39 [],
  [st 33 33 39, st 36 36 39, st 37 37 40, st 38 46 39, st 48 59 39, st 61 61 39, st 64 64 42,
    st 65 90 39, st 95 95 39, st 97 122 39, st 126 126 39] ++ delims 39 [],
  -- 40 to 49
  [st 48 57 41, st 65 70 41, st 97 102 41],
  [st 48 57 39, st 65 70 39, st 97 102 39],
  [tr 32 32 4 [.requestPath, .requestUri], st 33 33 43, tr 35 35 20 [.requestPath, .requestUri],
    st 36 36 43, st 37 37 44, st 38 46 43, st 47 47 26, st 48 57 43, st 58 58 46, st 59 59 43,
    st 61 61 43, tr 63 63 29 [.requestPath], st 65 90 43, st 91 91 47, st 95 95 43, st 97 122 43,
    st 126 126 43] ++ delims 43 [],
  [tr 32 32 4 [.requestPath, .requestUri], st 33 33 43, tr 35 35 20 [.requestPath, .requestUri],
    st 36 36 43, st 37 37 44, st 38 46 43, st 47 47 26, st 48 57 43, st 58 58 46, st 59 59 43,
    st 61 61 43, tr 63 63 29 [.requestPath], st 65 90 43, st 95 95 43, st 97 122 43, st 126 126 43]
    ++ delims 43 [],
  [st 48 57 45, st 65 70 45, st 97 102 45],
  [st 48 57 43, st 65 70 43, st 97 102 43],
  [tr 32 32 4 [.requestPath, .requestUri], tr 35 35 20 [.requestPath, .requestUri], st 47 47 26,
    st 48 57 46, tr 63 63 29 [.requestPath]],
  [st 6 6 48, st 48 57 91, st 58 58 167, st 65 70 91, st 97 102 91, st 118 118 169],
  [st 48 57 49, st 65 70 49, st 97 102 49],
  [st 48 57 50, st 58 58 53, st 65 70 50, st 97 102 50],
  -- 50 to 59
  [st 48 57 51, st 58 58 53, st 65 70 51, st 97 102 51],
  [st 48 57 52, st 58 58 53, st 65 70 52, st 97 102 52],
  [st 58 58 53],
  [st 48 48 54, st 49 49 84, st 50 50 87, st 51 57 54, st 65 70 90, st 97 102 90],
  [st 46 46 55, st 48 57 77, st 58 58 80, st 65 70 77, st 97 102 77],
  [st 48 48 56, st 49 49 72, st 50 50 74, st 51 57 56],
  [st 46 46 57],
  [st 48 48 58, st 49 49 67, st 50 50 69, st 51 57 58],
  [st 46 46 59],
  [st 48 48 60, st 49 49 62, st 50 50 64, st 51 57 60],
  -- 60 to 69
  [st 93 93 61],
  [tr 32 32 4 [.requestPath, .requestUri], tr 35 35 20 [.requestPath, .requestUri], st 47 47 26,
    st 58 58 46, tr 63 63 29 [.requestPath]],
  [st 48 57 63, st 93 93 61],
  [st 48 57 60, st 93 93 61],
  [st 48 48 65, st 53 53 66, st 93 93 61],
  [st 48 57 60],
  [st 48 48 60],
  [st 46 46 59, st 48 57 68],
  [st 46 46 59, st 48 57 58],
  [st 46 46 59, st 48 48 70, st 53 53 71],
  -- 70 to 79
  [st 48 57 58],
  [st 48 48 58],
  [st 46 46 57, st 48 57 73],
  [st 46 46 57, st 48 57 56],
  [st 46 46 57, st 48 48 75, st 53 53 76],
  [st 48 57 56],
  [st 48 48 56],
  [st 48 57 78, st 58 58 80, st 65 70 78, st 97 102 78],
  [st 48 57 79, st 58 58 80, st 65 70 79, st 97 102 79],
  [st 58 58 80],
  -- 80 to 89
  [st 48 57 81, st 65 70 81, st 97 102 81],
  [st 48 57 82, st 65 70 82, st 93 93 61, st 97 102 82],
  [st 48 57 83, st 65 70 83, st 93 93 61, st 97 102 83],
  [st 48 57 60, st 65 70 60, st 93 93 61, st 97 102 60],
  [st 46 46 55, st 48 57 85, st 58 58 80, st 65 70 77, st 97 102 77],
  [st 46 46 55, st 48 57 86, st 58 58 80, st 65 70 78, st 97 102 78],
  [st 46 46 55, st 48 57 79, st 58 58 80, st 65 70 79, st 97 102 79],
  [st 46 46 55, st 48 48 88, st 49 52 77, st 53 53 89, st 54 57 77, st 58 58 80, st 65 70 77,
    st 97 102 77],
  [st 48 57 86, st 58 58 80, st 65 70 78, st 97 102 78],
  [st 48 48 86, st 49 57 78, st 58 58 80, st 65 70 78, st 97 102 78],
  -- 90 to 99
  [st 48 57 77, st 58 58 80, st 65 70 77, st 97 102 77],
  [st 48 57 92, st 58 58 95, st 65 70 92, st 97 102 92],
  [st 48 57 93, st 58 58 95, st 65 70 93, st 97 102 93],
  [st 48 57 94, st 58 58 95, st 65 70 94, st 97 102 94],
  [st 58 58 95],
  [st 48 57 96, st 58 58 166, st 65 70 96, st 97 102 96],
  [st 48 57 97, st 58 58 100, st 65 70 97, st 97 102 97],
  [st 48 57 98, st 58 58 100, st 65 70 98, st 97 102 98],
  [st 48 57 99, st 58 58 100, st 65 70 99, st 97 102 99],
  [st 58 58 100],
  -- 100 to 109
  [st 48 57 101, st 58 58 165, st 65 70 101, st 97 102 101],
  [st 48 57 102, st 58 58 105, st 65 70 102, st 97 102 102],
  [st 48 57 103, st 58 58 105, st 65 70 103, st 97 102 103],
  [st 48 57 104, st 58 58 105, st 65 70 104, st 97 102 104],
  [st 58 58 105],
  [st 48 57 106, st 58 58 164, st 65 70 106, st 97 102 106],
  [st 48 57 107, st 58 58 110, st 65 70 107, st 97 102 107],
  [st 48 57 108, st 58 58 110, st 65 70 108, st 97 102 108],
  [st 48 57 109, st 58 58 110, st 65 70 109, st 97 102 109],
  [st 58 58 110],
  -- 110 to 119
  [st 48 57 111, st 58 58 163, st 65 70 111, st 97 102 111],
  [st 48 57 112, st 58 58 115, st 65 70 112, st 97 102 112],
  [st 48 57 113, st 58 58 115, st 65 70 113, st 97 102 113],
  [st 48 57 114, st 58 58 115, st 65 70 114, st 97 102 114],
  [st 58 58 115],
  [st 48 57 116, st 58 58 151, st 65 70 116, st 97 102 116],
  [st 48 57 117, st 58 58 120, st 65 70 117, st 97 102 117],
  [st 48 57 118, st 58 58 120, st 65 70 118, st 97 102 118],
  [st 48 57 119, st 58 58 120, st 65 70 119, st 97 102 119],
  [st 58 58 120],
  -- 120 to 129
  [st 48 57 121, st 58 58 150, st 65 70 121, st 97 102 121],
  [st 48 57 122, st 58 58 125, st 65 70 122, st 97 102 122],
  [st 48 57 123, st 58 58 125, st 65 70 123, st 97 102 123],
  [st 48 57 124, st 58 58 125, st 65 70 124, st 97 102 124],
  [st 58 58 125],
  [st 48 57 121, st 58 58 126, st 65 70 121, st 97 102 121],
  [st 2 3 48, st 48 48 127, st 49 49 143, st 50 50 146, st 51 57 127, st 65 70 149, st 93 93 61,
    st 97 102 149],
  [st 46 46 55, st 48 57 128, st 58 58 131, st 65 70 128, st 93 93 61, st 97 102 128],
  [st 48 57 129, st 58 58 131, st 65 70 129, st 93 93 61, st 97 102 129],
  [st 48 57 130, st 58 58 131, st 65 70 130, st 93 93 61, st 97 102 130],
  -- 130 to 139
  [st 58 58 131, st 93 93 61],
  [st 48 48 132, st 49 49 136, st 50 50 139, st 51 57 132, st 65 70 142, st 97 102 142],
  [st 46 46 55, st 48 57 133, st 58 58 80, st 65 70 133, st 93 93 61, st 97 102 133],
  [st 48 57 134, st 58 58 80, st 65 70 134, st 93 93 61, st 97 102 134],
  [st 48 57 135, st 58 58 80, st 65 70 135, st 93 93 61, st 97 102 135],
  [st 58 58 80, st 93 93 61],
  [st 46 46 55, st 48 57 137, st 58 58 80, st 65 70 133, st 93 93 61, st 97 102 133],
  [st 46 46 55, st 48 57 138, st 58 58 80, st 65 70 134, st 93 93 61, st 97 102 134],
  [st 46 46 55, st 48 57 135, st 58 58 80, st 65 70 135, st 93 93 61, st 97 102 135],
  [st 46 46 55, st 48 48 140, st 49 52 133, st 53 53 141, st 54 57 133, st 58 58 80, st 65 70 133,
    st 93 93 61, st 97 102 133],
  -- 140 to 149
  [st 48 57 138, st 58 58 80, st 65 70 134, st 93 93 61, st 97 102 134],
  [st 48 48 138, st 49 57 134, st 58 58 80, st 65 70 134, st 93 93 61, st 97 102 134],
  [st 48 57 133, st 58 58 80, st 65 70 133, st 93 93 61, st 97 102 133],
  [st 46 46 55, st 48 57 144, st 58 58 131, st 65 70 128, st 93 93 61, st 97 102 128],
  [st 46 46 55, st 48 57 145, st 58 58 131, st 65 70 129, st 93 93 61, st 97 102 129],
  [st 46 46 55, st 48 57 130, st 58 58 131, st 65 70 130, st 93 93 61, st 97 102 130],
  [st 46 46 55, st 48 48 147, st 49 52 128, st 53 53 148, st 54 57 128, st 58 58 131, st 65 70 128,
    st 93 93 61, st 97 102 128],
  [st 48 57 145, st 58 58 131, st 65 70 129, st 93 93 61, st 97 102 129],
  [st 48 48 145, st 49 57 129, st 58 58 131, st 65 70 129, st 93 93 61, st 97 102 129],
  [st 48 57 128, st 58 58 131, st 65 70 128, st 93 93 61, st 97 102 128],
  -- 150 to 159
  [st 2 3 48, st 48 48 127, st 49 49 143, st 50 50 146, st 51 57 127, st 65 70 149, st 97 102 149],
  [st 2 3 48, st 48 48 152, st 49 49 156, st 50 50 159, st 51 57 152, st 65 70 162, st 97 102 162],
  [st 46 46 55, st 48 57 153, st 58 58 131, st 65 70 153, st 97 102 153],
  [st 48 57 154, st 58 58 131, st 65 70 154, st 97 102 154],
  [st 48 57 155, st 58 58 131, st 65 70 155, st 97 102 155],
  [st 58 58 131],
  [st 46 46 55, st 48 57 157, st 58 58 131, st 65 70 153, st 97 102 153],
  [st 46 46 55, st 48 57 158, st 58 58 131, st 65 70 154, st 97 102 154],
  [st 46 46 55, st 48 57 155, st 58 58 131, st 65 70 155, st 97 102 155],
  [st 46 46 55, st 48 48 160, st 49 52 153, st 53 53 161, st 54 57 153, st 58 58 131, st 65 70 153,
    st 97 102 153],
  -- 160 to 169
  [st 48 57 158, st 58 58 131, st 65 70 154, st 97 102 154],
  [st 48 48 158, st 49 57 154, st 58 58 131, st 65 70 154, st 97 102 154],
  [st 48 57 153, st 58 58 131, st 65 70 153, st 97 102 153],
  [st 2 3 48, st 48 57 49, st 65 70 49, st 97 102 49],
  [st 2 3 48],
  [st 3 3 48],
  [st 4 4 48],
  [st 58 58 168],
  [st 2 5 48, st 48 48 127, st 49 49 143, st 50 50 146, st 51 57 127, st 65 70 149, st 93 93 61,
    st 97 102 149],
  [st 48 57 170, st 65 70 170, st 97 102 170],
  -- 170 to 179
  [st 46 46 171, st 48 57 170, st 65 70 170, st 97 102 170],
  [st 33 33 172, st 36 36 172, st 38 46 172, st 48 59 172, st 61 61 172, st 65 90 172,
    st 95 95 172, st 97 122 172, st 126 126 172] ++ delims 172 [],
  [st 33 33 172, st 36 36 172, st 38 46 172, st 48 59 172, st 61 61 172, st 65 90 172, st 93 93 61,
    st 95 95 172, st 97 122 172, st 126 126 172] ++ delims 172 [],
  [tr 32 32 4 [.requestPath, .requestUri], st 33 33 19, tr 35 35 20 [.requestPath, .requestUri],
    st 36 36 19, st 37 37 24, st 38 42 19, st 43 43 173, st 44 44 19, st 45 46 173, st 47 47 26,
    st 48 57 173, st 58 58 174, st 59 59 19, st 61 61 19, tr 63 63 29 [.requestPath], st 64 64 19,
    st 65 90 173, st 95 95 19, st 97 122 173, st 126 126 19] ++ delims 19 [],
  [tr 32 32 4 [.mark, .requestPath, .requestUri], tr 33 33 26 [.mark],
    tr 35 35 20 [.mark, .requestPath, .requestUri], tr 36 36 26 [.mark], tr 37 37 27 [.mark],
    tr 38 46 26 [.mark], tr 47 47 33 [.mark], tr 48 59 26 [.mark], tr 61 61 26 [.mark],
    tr 63 63 29 [.mark, .requestPath], tr 64 90 26 [.mark], tr 95 95 26 [.mark],
    tr 97 122 26 [.mark], tr 126 126 26 [.mark]] ++ delims 26 [.mark],
  [tr 32 32 3 [.requestMethod], st 48 57 176, st 65 90 176],
  [tr 32 32 3 [.requestMethod], st 48 57 177, st 65 90 177],
  [tr 32 32 3 [.requestMethod], st 48 57 178, st 65 90 178],
  [tr 32 32 3 [.requestMethod], st 48 57 179, st 65 90 179],
  [tr 32 32 3 [.requestMethod], st 48 57 180, st 65 90 180],
  -- 180 to 189
  [tr 32 32 3 [.requestMethod], st 48 57 181, st 65 90 181],
  [tr 32 32 3 [.requestMethod], st 48 57 182, st 65 90 182],
  [tr 32 32 3 [.requestMethod], st 48 57 183, st 65 90 183],
  [tr 32 32 3 [.requestMethod], st 48 57 184, st 65 90 184],
  [tr 32 32 3 [.requestMethod], st 48 57 185, st 65 90 185],
  [tr 32 32 3 [.requestMethod], st 48 57 186, st 65 90 186],
  [tr 32 32 3 [.requestMethod], st 48 57 187, st 65 90 187],
  [tr 32 32 3 [.requestMethod], st 48 57 188, st 65 90 188],
  [tr 32 32 3 [.requestMethod], st 48 57 189, st 65 90 189],
  [tr 32 32 3 [.requestMethod], st 48 57 190, st 65 90 190],
  -- 190 to 199
  [tr 32 32 3 [.requestMethod], st 48 57 191, st 65 90 191],
  [tr 32 32 3 [.requestMethod], st 48 57 192, st 65 90 192],
  [tr 32 32 3 [.requestMethod], st 48 57 193, st 65 90 193],
  [tr 32 32 3 [.requestMethod]],
  [st 45 46 195, st 48 57 195, st 65 90 195, st 97 122 195],
  [tr 9 13 196 [.requestPath], tr 32 32 196 [.requestPath], st 45 46 195,
    tr 47 47 196 [.requestPath], st 48 57 195, tr 62 62 196 [.requestPath], st 65 90 195,
    st 97 122 195],
  [st 0 61 196, st 62 62 197, st 63 255 196],
  [tr 0 0 349 [.xml, .done], st 1 61 196, st 62 62 197, st 63 255 196],
  [tr 32 32 199 [.requestPath], st 33 33 202, st 36 36 202, st 37 37 203, st 38 46 202,
    st 47 47 208, st 48 57 202, st 59 59 202, st 61 61 202, st 64 90 202, st 95 95 202,
    st 97 122 202, st 126 126 202] ++ delims 202 [],
  [tr 123 123 200 [.mark]],
  -- 200 to 209
  [st 0 124 200, st 125 125 201, st 126 255 200],
  [tr 0 0 349 [.json, .done], st 1 124 200, st 125 125 201, st 126 255 200],
  [tr 32 32 199 [.requestPath], st 33 33 202, st 36 36 202, st 37 37 203, st 38 46 202,
    st 47 47 205, st 48 57 202, st 59 59 202, st 61 61 202, st 64 90 202, st 95 95 202,
    st 97 122 202, st 126 126 202] ++ delims 202 [],
  [st 48 57 204, st 65 70 204, st 97 102 204],
  [st 48 57 202, st 65 70 202, st 97 102 202],
  [tr 32 32 199 [.requestPath], st 33 33 205, st 36 36 205, st 37 37 206, st 38 59 205,
    st 61 61 205, st 64 90 205, st 95 95 205, st 97 122 205, st 126 126 205] ++ delims 205 [],
  [st 48 57 207, st 65 70 207, st 97 102 207],
  [st 48 57 205, st 65 70 205, st 97 102 205],
  [tr 32 32 199 [.requestPath], st 33 33 205, st 36 36 205, st 37 37 206, st 38 46 205,
    st 47 47 209, st 48 59 205, st 61 61 205, st 64 90 205, st 95 95 205, st 97 122 205,
    st 126 126 205] ++ delims 205 [],
  [tr 32 32 199 [.requestPath], st 33 33 210, st 36 36 210, st 37 37 211, st 38 46 210,
    st 47 47 205, st 48 57 210, st 58 58 213, st 59 59 210, st 61 61 210, st 64 64 217,
    st 65 90 210, st 91 91 222, st 95 95 210, st 97 122 210, st 126 126 210] ++ delims 210 [],
  -- 210 to 219
  [tr 32 32 199 [.requestPath], st 33 33 210, st 36 36 210, st 37 37 211, st 38 46 210,
    st 47 47 205, st 48 57 210, st 58 58 213, st 59 59 210, st 61 61 210, st 64 64 217,
    st 65 90 210, st 95 95 210, st 97 122 210, st 126 126 210] ++ delims 210 [],
  [st 48 57 212, st 65 70 212, st 97 102 212],
  [st 48 57 210, st 65 70 210, st 97 102 210],
  [tr 32 32 199 [.requestPath], st 33 33 214, st 36 36 214, st 37 37 215, st 38 46 214,
    st 47 47 205, st 48 57 213, st 58 59 214, st 61 61 214, st 64 64 217, st 65 90 214,
    st 95 95 214, st 97 122 214, st 126 126 214] ++ delims 214 [],
  [st 33 33 214, st 36 36 214, st 37 37 215, st 38 46 214, st 48 59 214, st 61 61 214,
    st 64 64 217, st 65 90 214, st 95 95 214, st 97 122 214, st 126 126 214] ++ delims 214 [],
  [st 48 57 216, st 65 70 216, st 97 102 216],
  [st 48 57 214, st 65 70 214, st 97 102 214],
  [tr 32 32 199 [.requestPath], st 33 33 218, st 36 36 218, st 37 37 219, st 38 46 218,
    st 47 47 205, st 48 57 218, st 58 58 221, st 59 59 218, st 61 61 218, st 65 90 218,
    st 91 91 222, st 95 95 218, st 97 122 218, st 126 126 218] ++ delims 218 [],
  [tr 32 32 199 [.requestPath], st 33 33 218, st 36 36 218, st 37 37 219, st 38 46 218,
    st 47 47 205, st 48 57 218, st 58 58 221, st 59 59 218, st 61 61 218, st 65 90 218,
    st 95 95 218, st 97 122 218, st 126 126 218] ++ delims 218 [],
  [st 48 57 220, st 65 70 220, st 97 102 220],
  -- 220 to 229
  [st 48 57 218, st 65 70 218, st 97 102 218],
  [tr 32 32 199 [.requestPath], st 47 47 205, st 48 57 221],
  [st 6 6 223, st 48 57 266, st 58 58 342, st 65 70 266, st 97 102 266, st 118 118 344],
  [st 48 57 224, st 65 70 224, st 97 102 224],
  [st 48 57 225, st 58 58 228, st 65 70 225, st 97 102 225],
  [st 48 57 226, st 58 58 228, st 65 70 226, st 97 102 226],
  [st 48 57 227, st 58 58 228, st 65 70 227, st 97 102 227],
  [st 58 58 228],
  [st 48 48 229, st 49 49 259, st 50 50 262, st 51 57 229, st 65 70 265, st 97 102 265],
  [st 46 46 230, st 48 57 252, st 58 58 255, st 65 70 252, st 97 102 252],
  -- 230 to 239
  [st 48 48 231, st 49 49 247, st 50 50 249, st 51 57 231],
  [st 46 46 232],
  [st 48 48 233, st 49 49 242, st 50 50 244, st 51 57 233],
  [st 46 46 234],
  [st 48 48 235, st 49 49 237, st 50 50 239, st 51 57 235],
  [st 93 93 236],
  [tr 32 32 199 [.requestPath], st 47 47 205, st 58 58 221],
  [st 48 57 238, st 93 93 236],
  [st 48 57 235, st 93 93 236],
  [st 48 48 240, st 53 53 241, st 93 93 236],
  -- 240 to 249
  [st 48 57 235],
  [st 48 48 235],
  [st 46 46 234, st 48 57 243],
  [st 46 46 234, st 48 57 233],
  [st 46 46 234, st 48 48 245, st 53 53 246],
  [st 48 57 233],
  [st 48 48 233],
  [st 46 46 232, st 48 57 248],
  [st 46 46 232, st 48 57 231],
  [st 46 46 232, st 48 48 250, st 53 53 251],
  -- 250 to 259
  [st 48 57 231],
  [st 48 48 231],
  [st 48 57 253, st 58 58 255, st 65 70 253, st 97 102 253],
  [st 48 57 254, st 58 58 255, st 65 70 254, st 97 102 254],
  [st 58 58 255],
  [st 48 57 256, st 65 70 256, st 97 102 256],
  [st 48 57 257, st 65 70 257, st 93 93 236, st 97 102 257],
  [st 48 57 258, st 65 70 258, st 93 93 236, st 97 102 258],
  [st 48 57 235, st 65 70 235, st 93 93 236, st 97 102 235],
  [st 46 46 230, st 48 57 260, st 58 58 255, st 65 70 252, st 97 102 252],
  -- 260 to 269
  [st 46 46 230, st 48 57 261, st 58 58 255, st 65 70 253, st 97 102 253],
  [st 46 46 230, st 48 57 254, st 58 58 255, st 65 70 254, st 97 102 254],
  [st 46 46 230, st 48 48 263, st 49 52 252, st 53 53 264, st 54 57 252, st 58 58 255,
    st 65 70 252, st 97 102 252],
  [st 48 57 261, st 58 58 255, st 65 70 253, st 97 102 253],
  [st 48 48 261, st 49 57 253, st 58 58 255, st 65 70 253, st 97 102 253],
  [st 48 57 252, st 58 58 255, st 65 70 252, st 97 102 252],
  [st 48 57 267, st 58 58 270, st 65 70 267, st 97 102 267],
  [st 48 57 268, st 58 58 270, st 65 70 268, st 97 102 268],
  [st 48 57 269, st 58 58 270, st 65 70 269, st 97 102 269],
  [st 58 58 270],
  -- 270 to 279
  [st 48 57 271, st 58 58 341, st 65 70 271, st 97 102 271],
  [st 48 57 272, st 58 58 275, st 65 70 272, st 97 102 272],
  [st 48 57 273, st 58 58 275, st 65 70 273, st 97 102 273],
  [st 48 57 274, st 58 58 275, st 65 70 274, st 97 102 274],
  [st 58 58 275],
  [st 48 57 276, st 58 58 340, st 65 70 276, st 97 102 276],
  [st 48 57 277, st 58 58 280, st 65 70 277, st 97 102 277],
  [st 48 57 278, st 58 58 280, st 65 70 278, st 97 102 278],
  [st 48 57 279, st 58 58 280, st 65 70 279, st 97 102 279],
  [st 58 58 280],
  -- 280 to 289
  [st 48 57 281, st 58 58 339, st 65 70 281, st 97 102 281],
  [st 48 57 282, st 58 58 285, st 65 70 282, st 97 102 282],
  [st 48 57 283, st 58 58 285, st 65 70 283, st 97 102 283],
  [st 48 57 284, st 58 58 285, st 65 70 284, st 97 102 284],
  [st 58 58 285],
  [st 48 57 286, st 58 58 338, st 65 70 286, st 97 102 286],
  [st 48 57 287, st 58 58 290, st 65 70 287, st 97 102 287],
  [st 48 57 288, st 58 58 290, st 65 70 288, st 97 102 288],
  [st 48 57 289, st 58 58 290, st 65 70 289, st 97 102 289],
  [st 58 58 290],
  -- 290 to 299
  [st 48 57 291, st 58 58 326, st 65 70 291, st 97 102 291],
  [st 48 57 292, st 58 58 295, st 65 70 292, st 97 102 292],
  [st 48 57 293, st 58 58 295, st 65 70 293, st 97 102 293],
  [st 48 57 294, st 58 58 295, st 65 70 294, st 97 102 294],
  [st 58 58 295],
  [st 48 57 296, st 58 58 325, st 65 70 296, st 97 102 296],
  [st 48 57 297, st 58 58 300, st 65 70 297, st 97 102 297],
  [st 48 57 298, st 58 58 300, st 65 70 298, st 97 102 298],
  [st 48 57 299, st 58 58 300, st 65 70 299, st 97 102 299],
  [st 58 58 300],
  -- 300 to 309
  [st 48 57 296, st 58 58 301, st 65 70 296, st 97 102 296],
  [st 2 3 223, st 48 48 302, st 49 49 318, st 50 50 321, st 51 57 302, st 65 70 324, st 93 93 236,
    st 97 102 324],
  [st 46 46 230, st 48 57 303, st 58 58 306, st 65 70 303, st 93 93 236, st 97 102 303],
  [st 48 57 304, st 58 58 306, st 65 70 304, st 93 93 236, st 97 102 304],
  [st 48 57 305, st 58 58 306, st 65 70 305, st 93 93 236, st 97 102 305],
  [st 58 58 306, st 93 93 236],
  [st 48 48 307, st 49 49 311, st 50 50 314, st 51 57 307, st 65 70 317, st 97 102 317],
  [st 46 46 230, st 48 57 308, st 58 58 255, st 65 70 308, st 93 93 236, st 97 102 308],
  [st 48 57 309, st 58 58 255, st 65 70 309, st 93 93 236, st 97 102 309],
  [st 48 57 310, st 58 58 255, st 65 70 310, st 93 93 236, st 97 102 310],
  -- 310 to 319
  [st 58 58 255, st 93 93 236],
  [st 46 46 230, st 48 57 312, st 58 58 255, st 65 70 308, st 93 93 236, st 97 102 308],
  [st 46 46 230, st 48 57 313, st 58 58 255, st 65 70 309, st 93 93 236, st 97 102 309],
  [st 46 46 230, st 48 57 310, st 58 58 255, st 65 70 310, st 93 93 236, st 97 102 310],
  [st 46 46 230, st 48 48 315, st 49 52 308, st 53 53 316, st 54 57 308, st 58 58 255,
    st 65 70 308, st 93 93 236, st 97 102 308],
  [st 48 57 313, st 58 58 255, st 65 70 309, st 93 93 236, st 97 102 309],
  [st 48 48 313, st 49 57 309, st 58 58 255, st 65 70 309, st 93 93 236, st 97 102 309],
  [st 48 57 308, st 58 58 255, st 65 70 308, st 93 93 236, st 97 102 308],
  [st 46 46 230, st 48 57 319, st 58 58 306, st 65 70 303, st 93 93 236, st 97 102 303],
  [st 46 46 230, st 48 57 320, st 58 58 306, st 65 70 304, st 93 93 236, st 97 102 304],
  -- 320 to 329
  [st 46 46 230, st 48 57 305, st 58 58 306, st 65 70 305, st 93 93 236, st 97 102 305],
  [st 46 46 230, st 48 48 322, st 49 52 303, st 53 53 323, st 54 57 303, st 58 58 306,
    st 65 70 303, st 93 93 236, st 97 102 303],
  [st 48 57 320, st 58 58 306, st 65 70 304, st 93 93 236, st 97 102 304],
  [st 48 48 320, st 49 57 304, st 58 58 306, st 65 70 304, st 93 93 236, st 97 102 304],
  [st 48 57 303, st 58 58 306, st 65 70 303, st 93 93 236, st 97 102 303],
  [st 2 3 223, st 48 48 302, st 49 49 318, st 50 50 321, st 51 57 302, st 65 70 324, st 97 102 324],
  [st 2 3 223, st 48 48 327, st 49 49 331, st 50 50 334, st 51 57 327, st 65 70 337, st 97 102 337],
  [st 46 46 230, st 48 57 328, st 58 58 306, st 65 70 328, st 97 102 328],
  [st 48 57 329, st 58 58 306, st 65 70 329, st 97 102 329],
  [st 48 57 330, st 58 58 306, st 65 70 330, st 97 102 330],
  -- 330 to 339
  [st 58 58 306],
  [st 46 46 230, st 48 57 332, st 58 58 306, st 65 70 328, st 97 102 328],
  [st 46 46 230, st 48 57 333, st 58 58 306, st 65 70 329, st 97 102 329],
  [st 46 46 230, st 48 57 330, st 58 58 306, st 65 70 330, st 97 102 330],
  [st 46 46 230, st 48 48 335, st 49 52 328, st 53 53 336, st 54 57 328, st 58 58 306,
    st 65 70 328, st 97 102 328],
  [st 48 57 333, st 58 58 306, st 65 70 329, st 97 102 329],
  [st 48 48 333, st 49 57 329, st 58 58 306, st 65 70 329, st 97 102 329],
  [st 48 57 328, st 58 58 306, st 65 70 328, st 97 102 328],
  [st 2 3 223, st 48 57 224, st 65 70 224, st 97 102 224],
  [st 2 3 223],
  -- 340 to 349
  [st 3 3 223],
  [st 4 4 223],
  [st 58 58 343],
  [st 2 5 223, st 48 48 302, st 49 49 318, st 50 50 321, st 51 57 302, st 65 70 324, st 93 93 236,
    st 97 102 324],
  [st 48 57 345, st 65 70 345, st 97 102 345],
  [st 46 46 346, st 48 57 345, st 65 70 345, st 97 102 345],
  [st 33 33 347, st 36 36 347, st 38 46 347, st 48 59 347, st 61 61 347, st 65 90 347,
    st 95 95 347, st 97 122 347, st 126 126 347] ++ delims 347 [],
  [st 33 33 347, st 36 36 347, st 38 46 347, st 48 59 347, st 61 61 347, st 65 90 347,
    st 93 93 236, st 95 95 347, st 97 122 347, st 126 126 347] ++ delims 347 [],
  [st 1 8 14, st 10 31 14, st 33 33 14, st 35 39 14, st 42 43 14, st 45 46 14, st 48 57 14,
    tr 58 58 15 [.writeField], st 65 90 14, st 94 122 14, st 124 124 14, st 126 126 14],
  []]

/-- The transition of a state for a byte. -/
def next (uriRelaxed : Bool) (cs : Nat) (b : UInt8) : Option (Nat × List Action) :=
  ((table.getD cs []).find? fun e =>
    e.lo ≤ b.toNat && b.toNat ≤ e.hi && (!e.relaxed || uriRelaxed)).map
    fun e => (e.next, e.actions)

/-- The machine; `done` leaves it with `fbreak`. -/
def machine (uriRelaxed : Bool) : Machine Nat Action where
  next := next uriRelaxed
  stops a := a == .done

/-- A check of every edge of rows for the states from `cs` on. -/
def everyEdge (check : Nat → Edge → Bool) : Nat → List (List Edge) → Bool
  | _, [] => true
  | cs, row :: rows => row.all (check cs) && everyEdge check (cs + 1) rows

theorem of_everyEdge {check : Nat → Edge → Bool} {cs : Nat} {rows : List (List Edge)}
    (h : everyEdge check cs rows = true) {i : Nat} {e : Edge} (he : e ∈ rows.getD i []) :
    check (cs + i) e = true := by
  induction rows generalizing cs i with
  | nil => simp at he
  | cons row rows ih =>
    simp only [everyEdge, Bool.and_eq_true] at h
    cases i with
    | zero => exact List.all_eq_true.mp h.1 e (by simpa using he)
    | succ i =>
      have hrest := ih h.2 (i := i) (by simpa using he)
      rwa [Nat.add_assoc, Nat.add_comm 1 i] at hrest

/-- What holds of every edge of the table holds of every transition. -/
theorem next_of_table {check : Nat → Edge → Bool} (h : everyEdge check 0 table = true)
    {uriRelaxed : Bool} {cs cs' : Nat} {b : UInt8} {as : List Action}
    (hnext : (machine uriRelaxed).next cs b = some (cs', as)) :
    ∃ e : Edge, e.next = cs' ∧ e.actions = as ∧ e.lo ≤ b.toNat ∧ b.toNat ≤ e.hi ∧
      check cs e = true := by
  obtain ⟨e, hfind, he⟩ := Option.map_eq_some_iff.mp hnext
  have hmem := List.mem_of_find?_eq_some hfind
  have hrange := List.find?_some hfind
  simp only [Bool.and_eq_true, decide_eq_true_eq] at hrange
  simp only [Prod.mk.injEq] at he
  have hcheck := of_everyEdge h hmem
  rw [Nat.zero_add] at hcheck
  exact ⟨e, he.1, he.2, hrange.1.1, hrange.1.2, hcheck⟩

end CxkFramework.HttpParser
