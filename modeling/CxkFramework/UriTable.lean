import CxkFramework.ScannerTable

/-!
# The states of the URI machine

The machine that ragel makes of `uri.rl`, taken from `uri.rl.cpp`: for each state the ranges of
bytes it goes on with, the state it goes to and the actions on the way, and the actions at the end
of the text. A byte in no range leads to the error state 0. Bytes are compared as `char`, which is
signed: those from 128 on are below zero.
-/

namespace CxkFramework

open Scanner

/-- The actions of the grammar; `marku` and `markh` are the same. -/
inductive Uri.Action where
  | mark | saveScheme | savePort | saveUserinfo | saveHost | savePath | saveQuery | saveFragment
  deriving DecidableEq, Repr

namespace Uri

/-- `goto st`. -/
def st (lo hi next : Nat) : Edge Action := ⟨lo, hi, next, []⟩

/-- `goto tr`. -/
def tr (lo hi next : Nat) (actions : List Action) : Edge Action := ⟨lo, hi, next, actions⟩

/-- The letters of hexadecimal digits. -/
def letters (next : Nat) : List (Edge Action) := [st 65 70 next, st 97 102 next]

def xdigits (next : Nat) : List (Edge Action) := st 48 57 next :: letters next

/-- The letters and most of the marks of a name. -/
def plain (next : Nat) (actions : List Action) : List (Edge Action) :=
  [tr 33 33 next actions, tr 36 36 next actions, tr 59 59 next actions, tr 61 61 next actions,
    tr 65 90 next actions, tr 95 95 next actions, tr 97 122 next actions, tr 126 126 next actions]

/-- `uri_parser_start`. -/
def start : Nat := 451

/-- `uri_parser_first_final`. -/
def firstFinal : Nat := 451

/-- The transitions of the states from 0 on, in blocks of 20 states. -/
def table : List (List (List (Edge Action))) := [
  -- 0 to 19
  [[],
   xdigits 2,
   xdigits 454,
   xdigits 4,
   xdigits 452,
   xdigits 6,
   xdigits 455,
   xdigits 8,
   xdigits 457,
   [st 48 52 10],
   [st 48 57 11],
   [st 46 46 12],
   [st 2 2 13, st 48 48 15, st 49 49 27, st 50 50 29, st 51 57 28],
   [st 48 52 14],
   [st 48 57 15],
   [st 46 46 16],
   [st 2 2 17, st 48 48 19, st 49 49 23, st 50 50 25, st 51 57 24],
   [st 48 52 18],
   [st 48 57 19],
   [st 46 46 20]],
  -- 20 to 39
  [[st 2 2 21, st 48 48 460, st 49 49 463, st 50 50 465, st 51 57 464],
   [st 48 52 22],
   [st 48 57 460],
   [st 46 46 20, st 48 57 24],
   [st 46 46 20, st 48 57 19],
   [st 46 46 20, st 48 52 19, st 53 53 26, st 54 57 19],
   [st 46 46 20, st 48 53 19],
   [st 46 46 16, st 48 57 28],
   [st 46 46 16, st 48 57 15],
   [st 46 46 16, st 48 52 15, st 53 53 30, st 54 57 15],
   [st 46 46 16, st 48 53 15],
   xdigits 32,
   xdigits 467,
   [st 37 37 34, st 38 46 33, st 48 59 33, tr 64 64 469 [.saveUserinfo]] ++ plain 33 [],
   xdigits 35,
   xdigits 33,
   xdigits 37,
   xdigits 470,
   [st 58 58 146, st 118 118 225] ++ xdigits 39,
   [st 58 58 43] ++ xdigits 40],
  -- 40 to 59
  [[st 58 58 43] ++ xdigits 41,
   [st 58 58 43] ++ xdigits 42,
   [st 58 58 43],
   [st 58 58 141] ++ xdigits 44,
   [st 58 58 48] ++ xdigits 45,
   [st 58 58 48] ++ xdigits 46,
   [st 58 58 48] ++ xdigits 47,
   [st 58 58 48],
   [st 58 58 136] ++ xdigits 49,
   [st 58 58 53] ++ xdigits 50,
   [st 58 58 53] ++ xdigits 51,
   [st 58 58 53] ++ xdigits 52,
   [st 58 58 53],
   [st 58 58 131] ++ xdigits 54,
   [st 58 58 58] ++ xdigits 55,
   [st 58 58 58] ++ xdigits 56,
   [st 58 58 58] ++ xdigits 57,
   [st 58 58 58],
   [st 58 58 126] ++ xdigits 59,
   [st 58 58 63] ++ xdigits 60],
  -- 60 to 79
  [[st 58 58 63] ++ xdigits 61,
   [st 58 58 63] ++ xdigits 62,
   [st 58 58 63],
   [st 58 58 113] ++ xdigits 64,
   [st 58 58 68] ++ xdigits 65,
   [st 58 58 68] ++ xdigits 66,
   [st 58 58 68] ++ xdigits 67,
   [st 58 58 68],
   [st 2 2 69, st 48 48 96, st 49 49 104, st 50 50 107, st 51 57 110, st 58 58 111]
     ++ letters 112,
   [st 48 52 70],
   [st 48 57 71],
   [st 46 46 72],
   [st 2 2 73, st 48 48 75, st 49 49 92, st 50 50 94, st 51 57 93],
   [st 48 52 74],
   [st 48 57 75],
   [st 46 46 76],
   [st 2 2 77, st 48 48 79, st 49 49 88, st 50 50 90, st 51 57 89],
   [st 48 52 78],
   [st 48 57 79],
   [st 46 46 80]],
  -- 80 to 99
  [[st 2 2 81, st 48 48 83, st 49 49 84, st 50 50 86, st 51 57 85],
   [st 48 52 82],
   [st 48 57 83],
   [st 93 93 460],
   [st 48 57 85, st 93 93 460],
   [st 48 57 83, st 93 93 460],
   [st 48 52 83, st 53 53 87, st 54 57 83, st 93 93 460],
   [st 48 53 83, st 93 93 460],
   [st 46 46 80, st 48 57 89],
   [st 46 46 80, st 48 57 79],
   [st 46 46 80, st 48 52 79, st 53 53 91, st 54 57 79],
   [st 46 46 80, st 48 53 79],
   [st 46 46 76, st 48 57 93],
   [st 46 46 76, st 48 57 75],
   [st 46 46 76, st 48 52 75, st 53 53 95, st 54 57 75],
   [st 46 46 76, st 48 53 75],
   [st 46 46 72, st 58 58 100] ++ xdigits 97,
   [st 58 58 100] ++ xdigits 98,
   [st 58 58 100] ++ xdigits 99,
   [st 58 58 100]],
  -- 100 to 119
  [[st 58 58 83] ++ xdigits 101,
   [st 93 93 460] ++ xdigits 102,
   [st 93 93 460] ++ xdigits 103,
   [st 93 93 460] ++ xdigits 83,
   [st 46 46 72, st 48 57 105, st 58 58 100] ++ letters 97,
   [st 46 46 72, st 48 57 106, st 58 58 100] ++ letters 98,
   [st 46 46 72, st 58 58 100] ++ xdigits 99,
   [st 46 46 72, st 48 52 108, st 53 53 109, st 54 57 108, st 58 58 100] ++ letters 97,
   [st 46 46 72, st 58 58 100] ++ xdigits 98,
   [st 46 46 72, st 48 53 106, st 54 57 98, st 58 58 100, st 65 70 98, st 97 102 98],
   [st 46 46 72, st 48 57 108, st 58 58 100] ++ letters 97,
   xdigits 101,
   [st 58 58 100] ++ xdigits 97,
   [st 2 2 69, st 48 48 114, st 49 49 118, st 50 50 121, st 51 57 124] ++ letters 125,
   [st 46 46 72, st 58 58 111] ++ xdigits 115,
   [st 58 58 111] ++ xdigits 116,
   [st 58 58 111] ++ xdigits 117,
   [st 58 58 111],
   [st 46 46 72, st 48 57 119, st 58 58 111] ++ letters 115,
   [st 46 46 72, st 48 57 120, st 58 58 111] ++ letters 116],
  -- 120 to 139
  [[st 46 46 72, st 58 58 111] ++ xdigits 117,
   [st 46 46 72, st 48 52 122, st 53 53 123, st 54 57 122, st 58 58 111] ++ letters 115,
   [st 46 46 72, st 58 58 111] ++ xdigits 116,
   [st 46 46 72, st 48 53 120, st 54 57 116, st 58 58 111, st 65 70 116, st 97 102 116],
   [st 46 46 72, st 48 57 122, st 58 58 111] ++ letters 115,
   [st 58 58 111] ++ xdigits 115,
   xdigits 127,
   [st 58 58 113] ++ xdigits 128,
   [st 58 58 113] ++ xdigits 129,
   [st 58 58 113] ++ xdigits 130,
   [st 58 58 113],
   xdigits 132,
   [st 58 58 126] ++ xdigits 133,
   [st 58 58 126] ++ xdigits 134,
   [st 58 58 126] ++ xdigits 135,
   [st 58 58 126],
   xdigits 137,
   [st 58 58 131] ++ xdigits 138,
   [st 58 58 131] ++ xdigits 139,
   [st 58 58 131] ++ xdigits 140],
  -- 140 to 159
  [[st 58 58 131],
   xdigits 142,
   [st 58 58 136] ++ xdigits 143,
   [st 58 58 136] ++ xdigits 144,
   [st 58 58 136] ++ xdigits 145,
   [st 58 58 136],
   [st 58 58 147],
   [st 2 2 69, st 48 48 148, st 49 49 217, st 50 50 220, st 51 57 223, st 93 93 460]
     ++ letters 224,
   [st 46 46 72, st 58 58 152, st 93 93 460] ++ xdigits 149,
   [st 58 58 152, st 93 93 460] ++ xdigits 150,
   [st 58 58 152, st 93 93 460] ++ xdigits 151,
   [st 58 58 152, st 93 93 460],
   [st 2 2 69, st 48 48 153, st 49 49 209, st 50 50 212, st 51 57 215] ++ letters 216,
   [st 46 46 72, st 58 58 157, st 93 93 460] ++ xdigits 154,
   [st 58 58 157, st 93 93 460] ++ xdigits 155,
   [st 58 58 157, st 93 93 460] ++ xdigits 156,
   [st 58 58 157, st 93 93 460],
   [st 2 2 69, st 48 48 158, st 49 49 201, st 50 50 204, st 51 57 207] ++ letters 208,
   [st 46 46 72, st 58 58 162, st 93 93 460] ++ xdigits 159,
   [st 58 58 162, st 93 93 460] ++ xdigits 160],
  -- 160 to 179
  [[st 58 58 162, st 93 93 460] ++ xdigits 161,
   [st 58 58 162, st 93 93 460],
   [st 2 2 69, st 48 48 163, st 49 49 193, st 50 50 196, st 51 57 199] ++ letters 200,
   [st 46 46 72, st 58 58 167, st 93 93 460] ++ xdigits 164,
   [st 58 58 167, st 93 93 460] ++ xdigits 165,
   [st 58 58 167, st 93 93 460] ++ xdigits 166,
   [st 58 58 167, st 93 93 460],
   [st 2 2 69, st 48 48 168, st 49 49 185, st 50 50 188, st 51 57 191] ++ letters 192,
   [st 46 46 72, st 58 58 172, st 93 93 460] ++ xdigits 169,
   [st 58 58 172, st 93 93 460] ++ xdigits 170,
   [st 58 58 172, st 93 93 460] ++ xdigits 171,
   [st 58 58 172, st 93 93 460],
   [st 2 2 69, st 48 48 173, st 49 49 177, st 50 50 180, st 51 57 183] ++ letters 184,
   [st 46 46 72, st 58 58 111, st 93 93 460] ++ xdigits 174,
   [st 58 58 111, st 93 93 460] ++ xdigits 175,
   [st 58 58 111, st 93 93 460] ++ xdigits 176,
   [st 58 58 111, st 93 93 460],
   [st 46 46 72, st 48 57 178, st 58 58 111, st 93 93 460] ++ letters 174,
   [st 46 46 72, st 48 57 179, st 58 58 111, st 93 93 460] ++ letters 175,
   [st 46 46 72, st 58 58 111, st 93 93 460] ++ xdigits 176],
  -- 180 to 199
  [[st 46 46 72, st 48 52 181, st 53 53 182, st 54 57 181, st 58 58 111, st 93 93 460]
    ++ letters 174,
   [st 46 46 72, st 58 58 111, st 93 93 460] ++ xdigits 175,
   [st 46 46 72, st 48 53 179, st 54 57 175, st 58 58 111, st 65 70 175, st 93 93 460,
     st 97 102 175],
   [st 46 46 72, st 48 57 181, st 58 58 111, st 93 93 460] ++ letters 174,
   [st 58 58 111, st 93 93 460] ++ xdigits 174,
   [st 46 46 72, st 48 57 186, st 58 58 172, st 93 93 460] ++ letters 169,
   [st 46 46 72, st 48 57 187, st 58 58 172, st 93 93 460] ++ letters 170,
   [st 46 46 72, st 58 58 172, st 93 93 460] ++ xdigits 171,
   [st 46 46 72, st 48 52 189, st 53 53 190, st 54 57 189, st 58 58 172, st 93 93 460]
     ++ letters 169,
   [st 46 46 72, st 58 58 172, st 93 93 460] ++ xdigits 170,
   [st 46 46 72, st 48 53 187, st 54 57 170, st 58 58 172, st 65 70 170, st 93 93 460,
     st 97 102 170],
   [st 46 46 72, st 48 57 189, st 58 58 172, st 93 93 460] ++ letters 169,
   [st 58 58 172, st 93 93 460] ++ xdigits 169,
   [st 46 46 72, st 48 57 194, st 58 58 167, st 93 93 460] ++ letters 164,
   [st 46 46 72, st 48 57 195, st 58 58 167, st 93 93 460] ++ letters 165,
   [st 46 46 72, st 58 58 167, st 93 93 460] ++ xdigits 166,
   [st 46 46 72, st 48 52 197, st 53 53 198, st 54 57 197, st 58 58 167, st 93 93 460]
     ++ letters 164,
   [st 46 46 72, st 58 58 167, st 93 93 460] ++ xdigits 165,
   [st 46 46 72, st 48 53 195, st 54 57 165, st 58 58 167, st 65 70 165, st 93 93 460,
     st 97 102 165],
   [st 46 46 72, st 48 57 197, st 58 58 167, st 93 93 460] ++ letters 164],
  -- 200 to 219
  [[st 58 58 167, st 93 93 460] ++ xdigits 164,
   [st 46 46 72, st 48 57 202, st 58 58 162, st 93 93 460] ++ letters 159,
   [st 46 46 72, st 48 57 203, st 58 58 162, st 93 93 460] ++ letters 160,
   [st 46 46 72, st 58 58 162, st 93 93 460] ++ xdigits 161,
   [st 46 46 72, st 48 52 205, st 53 53 206, st 54 57 205, st 58 58 162, st 93 93 460]
     ++ letters 159,
   [st 46 46 72, st 58 58 162, st 93 93 460] ++ xdigits 160,
   [st 46 46 72, st 48 53 203, st 54 57 160, st 58 58 162, st 65 70 160, st 93 93 460,
     st 97 102 160],
   [st 46 46 72, st 48 57 205, st 58 58 162, st 93 93 460] ++ letters 159,
   [st 58 58 162, st 93 93 460] ++ xdigits 159,
   [st 46 46 72, st 48 57 210, st 58 58 157, st 93 93 460] ++ letters 154,
   [st 46 46 72, st 48 57 211, st 58 58 157, st 93 93 460] ++ letters 155,
   [st 46 46 72, st 58 58 157, st 93 93 460] ++ xdigits 156,
   [st 46 46 72, st 48 52 213, st 53 53 214, st 54 57 213, st 58 58 157, st 93 93 460]
     ++ letters 154,
   [st 46 46 72, st 58 58 157, st 93 93 460] ++ xdigits 155,
   [st 46 46 72, st 48 53 211, st 54 57 155, st 58 58 157, st 65 70 155, st 93 93 460,
     st 97 102 155],
   [st 46 46 72, st 48 57 213, st 58 58 157, st 93 93 460] ++ letters 154,
   [st 58 58 157, st 93 93 460] ++ xdigits 154,
   [st 46 46 72, st 48 57 218, st 58 58 152, st 93 93 460] ++ letters 149,
   [st 46 46 72, st 48 57 219, st 58 58 152, st 93 93 460] ++ letters 150,
   [st 46 46 72, st 58 58 152, st 93 93 460] ++ xdigits 151],
  -- 220 to 239
  [[st 46 46 72, st 48 52 221, st 53 53 222, st 54 57 221, st 58 58 152, st 93 93 460]
    ++ letters 149,
   [st 46 46 72, st 58 58 152, st 93 93 460] ++ xdigits 150,
   [st 46 46 72, st 48 53 219, st 54 57 150, st 58 58 152, st 65 70 150, st 93 93 460,
     st 97 102 150],
   [st 46 46 72, st 48 57 221, st 58 58 152, st 93 93 460] ++ letters 149,
   [st 58 58 152, st 93 93 460] ++ xdigits 149,
   xdigits 226,
   [st 46 46 227] ++ xdigits 226,
   [st 38 46 228, st 48 59 228] ++ plain 228 [],
   [st 38 46 228, st 48 59 228, st 93 93 460] ++ plain 228 [],
   [st 48 52 230],
   [st 48 57 231],
   [st 46 46 232],
   [st 2 2 233, st 48 48 235, st 49 49 249, st 50 50 251, st 51 57 250],
   [st 48 52 234],
   [st 48 57 235],
   [st 46 46 236],
   [st 2 2 237, st 48 48 239, st 49 49 245, st 50 50 247, st 51 57 246],
   [st 48 52 238],
   [st 48 57 239],
   [st 46 46 240]],
  -- 240 to 259
  [[st 2 2 241, st 48 48 512, st 49 49 516, st 50 50 518, st 51 57 517],
   [st 48 52 242],
   [st 48 57 512],
   xdigits 244,
   xdigits 513,
   [st 46 46 240, st 48 57 246],
   [st 46 46 240, st 48 57 239],
   [st 46 46 240, st 48 52 239, st 53 53 248, st 54 57 239],
   [st 46 46 240, st 48 53 239],
   [st 46 46 236, st 48 57 250],
   [st 46 46 236, st 48 57 235],
   [st 46 46 236, st 48 52 235, st 53 53 252, st 54 57 235],
   [st 46 46 236, st 48 53 235],
   xdigits 254,
   xdigits 520,
   [st 37 37 256, st 38 46 255, st 48 59 255, tr 64 64 522 [.saveUserinfo]] ++ plain 255 [],
   xdigits 257,
   xdigits 255,
   xdigits 259,
   xdigits 523],
  -- 260 to 279
  [[st 58 58 368, st 118 118 447] ++ xdigits 261,
   [st 58 58 265] ++ xdigits 262,
   [st 58 58 265] ++ xdigits 263,
   [st 58 58 265] ++ xdigits 264,
   [st 58 58 265],
   [st 58 58 363] ++ xdigits 266,
   [st 58 58 270] ++ xdigits 267,
   [st 58 58 270] ++ xdigits 268,
   [st 58 58 270] ++ xdigits 269,
   [st 58 58 270],
   [st 58 58 358] ++ xdigits 271,
   [st 58 58 275] ++ xdigits 272,
   [st 58 58 275] ++ xdigits 273,
   [st 58 58 275] ++ xdigits 274,
   [st 58 58 275],
   [st 58 58 353] ++ xdigits 276,
   [st 58 58 280] ++ xdigits 277,
   [st 58 58 280] ++ xdigits 278,
   [st 58 58 280] ++ xdigits 279,
   [st 58 58 280]],
  -- 280 to 299
  [[st 58 58 348] ++ xdigits 281,
   [st 58 58 285] ++ xdigits 282,
   [st 58 58 285] ++ xdigits 283,
   [st 58 58 285] ++ xdigits 284,
   [st 58 58 285],
   [st 58 58 335] ++ xdigits 286,
   [st 58 58 290] ++ xdigits 287,
   [st 58 58 290] ++ xdigits 288,
   [st 58 58 290] ++ xdigits 289,
   [st 58 58 290],
   [st 2 2 291, st 48 48 318, st 49 49 326, st 50 50 329, st 51 57 332, st 58 58 333]
     ++ letters 334,
   [st 48 52 292],
   [st 48 57 293],
   [st 46 46 294],
   [st 2 2 295, st 48 48 297, st 49 49 314, st 50 50 316, st 51 57 315],
   [st 48 52 296],
   [st 48 57 297],
   [st 46 46 298],
   [st 2 2 299, st 48 48 301, st 49 49 310, st 50 50 312, st 51 57 311],
   [st 48 52 300]],
  -- 300 to 319
  [[st 48 57 301],
   [st 46 46 302],
   [st 2 2 303, st 48 48 305, st 49 49 306, st 50 50 308, st 51 57 307],
   [st 48 52 304],
   [st 48 57 305],
   [st 93 93 512],
   [st 48 57 307, st 93 93 512],
   [st 48 57 305, st 93 93 512],
   [st 48 52 305, st 53 53 309, st 54 57 305, st 93 93 512],
   [st 48 53 305, st 93 93 512],
   [st 46 46 302, st 48 57 311],
   [st 46 46 302, st 48 57 301],
   [st 46 46 302, st 48 52 301, st 53 53 313, st 54 57 301],
   [st 46 46 302, st 48 53 301],
   [st 46 46 298, st 48 57 315],
   [st 46 46 298, st 48 57 297],
   [st 46 46 298, st 48 52 297, st 53 53 317, st 54 57 297],
   [st 46 46 298, st 48 53 297],
   [st 46 46 294, st 58 58 322] ++ xdigits 319,
   [st 58 58 322] ++ xdigits 320],
  -- 320 to 339
  [[st 58 58 322] ++ xdigits 321,
   [st 58 58 322],
   [st 58 58 305] ++ xdigits 323,
   [st 93 93 512] ++ xdigits 324,
   [st 93 93 512] ++ xdigits 325,
   [st 93 93 512] ++ xdigits 305,
   [st 46 46 294, st 48 57 327, st 58 58 322] ++ letters 319,
   [st 46 46 294, st 48 57 328, st 58 58 322] ++ letters 320,
   [st 46 46 294, st 58 58 322] ++ xdigits 321,
   [st 46 46 294, st 48 52 330, st 53 53 331, st 54 57 330, st 58 58 322] ++ letters 319,
   [st 46 46 294, st 58 58 322] ++ xdigits 320,
   [st 46 46 294, st 48 53 328, st 54 57 320, st 58 58 322, st 65 70 320, st 97 102 320],
   [st 46 46 294, st 48 57 330, st 58 58 322] ++ letters 319,
   xdigits 323,
   [st 58 58 322] ++ xdigits 319,
   [st 2 2 291, st 48 48 336, st 49 49 340, st 50 50 343, st 51 57 346] ++ letters 347,
   [st 46 46 294, st 58 58 333] ++ xdigits 337,
   [st 58 58 333] ++ xdigits 338,
   [st 58 58 333] ++ xdigits 339,
   [st 58 58 333]],
  -- 340 to 359
  [[st 46 46 294, st 48 57 341, st 58 58 333] ++ letters 337,
   [st 46 46 294, st 48 57 342, st 58 58 333] ++ letters 338,
   [st 46 46 294, st 58 58 333] ++ xdigits 339,
   [st 46 46 294, st 48 52 344, st 53 53 345, st 54 57 344, st 58 58 333] ++ letters 337,
   [st 46 46 294, st 58 58 333] ++ xdigits 338,
   [st 46 46 294, st 48 53 342, st 54 57 338, st 58 58 333, st 65 70 338, st 97 102 338],
   [st 46 46 294, st 48 57 344, st 58 58 333] ++ letters 337,
   [st 58 58 333] ++ xdigits 337,
   xdigits 349,
   [st 58 58 335] ++ xdigits 350,
   [st 58 58 335] ++ xdigits 351,
   [st 58 58 335] ++ xdigits 352,
   [st 58 58 335],
   xdigits 354,
   [st 58 58 348] ++ xdigits 355,
   [st 58 58 348] ++ xdigits 356,
   [st 58 58 348] ++ xdigits 357,
   [st 58 58 348],
   xdigits 359,
   [st 58 58 353] ++ xdigits 360],
  -- 360 to 379
  [[st 58 58 353] ++ xdigits 361,
   [st 58 58 353] ++ xdigits 362,
   [st 58 58 353],
   xdigits 364,
   [st 58 58 358] ++ xdigits 365,
   [st 58 58 358] ++ xdigits 366,
   [st 58 58 358] ++ xdigits 367,
   [st 58 58 358],
   [st 58 58 369],
   [st 2 2 291, st 48 48 370, st 49 49 439, st 50 50 442, st 51 57 445, st 93 93 512]
     ++ letters 446,
   [st 46 46 294, st 58 58 374, st 93 93 512] ++ xdigits 371,
   [st 58 58 374, st 93 93 512] ++ xdigits 372,
   [st 58 58 374, st 93 93 512] ++ xdigits 373,
   [st 58 58 374, st 93 93 512],
   [st 2 2 291, st 48 48 375, st 49 49 431, st 50 50 434, st 51 57 437] ++ letters 438,
   [st 46 46 294, st 58 58 379, st 93 93 512] ++ xdigits 376,
   [st 58 58 379, st 93 93 512] ++ xdigits 377,
   [st 58 58 379, st 93 93 512] ++ xdigits 378,
   [st 58 58 379, st 93 93 512],
   [st 2 2 291, st 48 48 380, st 49 49 423, st 50 50 426, st 51 57 429] ++ letters 430],
  -- 380 to 399
  [[st 46 46 294, st 58 58 384, st 93 93 512] ++ xdigits 381,
   [st 58 58 384, st 93 93 512] ++ xdigits 382,
   [st 58 58 384, st 93 93 512] ++ xdigits 383,
   [st 58 58 384, st 93 93 512],
   [st 2 2 291, st 48 48 385, st 49 49 415, st 50 50 418, st 51 57 421] ++ letters 422,
   [st 46 46 294, st 58 58 389, st 93 93 512] ++ xdigits 386,
   [st 58 58 389, st 93 93 512] ++ xdigits 387,
   [st 58 58 389, st 93 93 512] ++ xdigits 388,
   [st 58 58 389, st 93 93 512],
   [st 2 2 291, st 48 48 390, st 49 49 407, st 50 50 410, st 51 57 413] ++ letters 414,
   [st 46 46 294, st 58 58 394, st 93 93 512] ++ xdigits 391,
   [st 58 58 394, st 93 93 512] ++ xdigits 392,
   [st 58 58 394, st 93 93 512] ++ xdigits 393,
   [st 58 58 394, st 93 93 512],
   [st 2 2 291, st 48 48 395, st 49 49 399, st 50 50 402, st 51 57 405] ++ letters 406,
   [st 46 46 294, st 58 58 333, st 93 93 512] ++ xdigits 396,
   [st 58 58 333, st 93 93 512] ++ xdigits 397,
   [st 58 58 333, st 93 93 512] ++ xdigits 398,
   [st 58 58 333, st 93 93 512],
   [st 46 46 294, st 48 57 400, st 58 58 333, st 93 93 512] ++ letters 396],
  -- 400 to 419
  [[st 46 46 294, st 48 57 401, st 58 58 333, st 93 93 512] ++ letters 397,
   [st 46 46 294, st 58 58 333, st 93 93 512] ++ xdigits 398,
   [st 46 46 294, st 48 52 403, st 53 53 404, st 54 57 403, st 58 58 333, st 93 93 512]
     ++ letters 396,
   [st 46 46 294, st 58 58 333, st 93 93 512] ++ xdigits 397,
   [st 46 46 294, st 48 53 401, st 54 57 397, st 58 58 333, st 65 70 397, st 93 93 512,
     st 97 102 397],
   [st 46 46 294, st 48 57 403, st 58 58 333, st 93 93 512] ++ letters 396,
   [st 58 58 333, st 93 93 512] ++ xdigits 396,
   [st 46 46 294, st 48 57 408, st 58 58 394, st 93 93 512] ++ letters 391,
   [st 46 46 294, st 48 57 409, st 58 58 394, st 93 93 512] ++ letters 392,
   [st 46 46 294, st 58 58 394, st 93 93 512] ++ xdigits 393,
   [st 46 46 294, st 48 52 411, st 53 53 412, st 54 57 411, st 58 58 394, st 93 93 512]
     ++ letters 391,
   [st 46 46 294, st 58 58 394, st 93 93 512] ++ xdigits 392,
   [st 46 46 294, st 48 53 409, st 54 57 392, st 58 58 394, st 65 70 392, st 93 93 512,
     st 97 102 392],
   [st 46 46 294, st 48 57 411, st 58 58 394, st 93 93 512] ++ letters 391,
   [st 58 58 394, st 93 93 512] ++ xdigits 391,
   [st 46 46 294, st 48 57 416, st 58 58 389, st 93 93 512] ++ letters 386,
   [st 46 46 294, st 48 57 417, st 58 58 389, st 93 93 512] ++ letters 387,
   [st 46 46 294, st 58 58 389, st 93 93 512] ++ xdigits 388,
   [st 46 46 294, st 48 52 419, st 53 53 420, st 54 57 419, st 58 58 389, st 93 93 512]
     ++ letters 386,
   [st 46 46 294, st 58 58 389, st 93 93 512] ++ xdigits 387],
  -- 420 to 439
  [[st 46 46 294, st 48 53 417, st 54 57 387, st 58 58 389, st 65 70 387, st 93 93 512,
    st 97 102 387],
   [st 46 46 294, st 48 57 419, st 58 58 389, st 93 93 512] ++ letters 386,
   [st 58 58 389, st 93 93 512] ++ xdigits 386,
   [st 46 46 294, st 48 57 424, st 58 58 384, st 93 93 512] ++ letters 381,
   [st 46 46 294, st 48 57 425, st 58 58 384, st 93 93 512] ++ letters 382,
   [st 46 46 294, st 58 58 384, st 93 93 512] ++ xdigits 383,
   [st 46 46 294, st 48 52 427, st 53 53 428, st 54 57 427, st 58 58 384, st 93 93 512]
     ++ letters 381,
   [st 46 46 294, st 58 58 384, st 93 93 512] ++ xdigits 382,
   [st 46 46 294, st 48 53 425, st 54 57 382, st 58 58 384, st 65 70 382, st 93 93 512,
     st 97 102 382],
   [st 46 46 294, st 48 57 427, st 58 58 384, st 93 93 512] ++ letters 381,
   [st 58 58 384, st 93 93 512] ++ xdigits 381,
   [st 46 46 294, st 48 57 432, st 58 58 379, st 93 93 512] ++ letters 376,
   [st 46 46 294, st 48 57 433, st 58 58 379, st 93 93 512] ++ letters 377,
   [st 46 46 294, st 58 58 379, st 93 93 512] ++ xdigits 378,
   [st 46 46 294, st 48 52 435, st 53 53 436, st 54 57 435, st 58 58 379, st 93 93 512]
     ++ letters 376,
   [st 46 46 294, st 58 58 379, st 93 93 512] ++ xdigits 377,
   [st 46 46 294, st 48 53 433, st 54 57 377, st 58 58 379, st 65 70 377, st 93 93 512,
     st 97 102 377],
   [st 46 46 294, st 48 57 435, st 58 58 379, st 93 93 512] ++ letters 376,
   [st 58 58 379, st 93 93 512] ++ xdigits 376,
   [st 46 46 294, st 48 57 440, st 58 58 374, st 93 93 512] ++ letters 371],
  -- 440 to 459
  [[st 46 46 294, st 48 57 441, st 58 58 374, st 93 93 512] ++ letters 372,
   [st 46 46 294, st 58 58 374, st 93 93 512] ++ xdigits 373,
   [st 46 46 294, st 48 52 443, st 53 53 444, st 54 57 443, st 58 58 374, st 93 93 512]
     ++ letters 371,
   [st 46 46 294, st 58 58 374, st 93 93 512] ++ xdigits 372,
   [st 46 46 294, st 48 53 441, st 54 57 372, st 58 58 374, st 65 70 372, st 93 93 512,
     st 97 102 372],
   [st 46 46 294, st 48 57 443, st 58 58 374, st 93 93 512] ++ letters 371,
   [st 58 58 374, st 93 93 512] ++ xdigits 371,
   xdigits 448,
   [st 46 46 449] ++ xdigits 448,
   [st 38 46 450, st 48 59 450] ++ plain 450 [],
   [st 38 46 450, st 48 59 450, st 93 93 512] ++ plain 450 [],
   [st 33 33 452, st 35 35 453, st 36 36 452, st 37 37 3, st 38 46 452, st 47 47 458,
     st 48 57 452, st 59 59 452, st 61 61 452, st 63 63 456, st 64 64 452, tr 65 90 508 [.mark],
     st 95 95 452, tr 97 122 508 [.mark], st 126 126 452, st 128 255 452],
   [st 33 33 452, st 35 35 453, st 36 36 452, st 37 37 3, st 38 46 452, st 47 47 455,
     st 48 57 452, st 59 59 452, st 61 61 452, st 63 63 456, st 64 90 452, st 95 95 452,
     st 97 122 452, st 126 126 452, st 128 255 452],
   [tr 33 33 454 [.mark], tr 36 36 454 [.mark], tr 37 37 1 [.mark], tr 38 59 454 [.mark],
     tr 61 61 454 [.mark], tr 63 90 454 [.mark], tr 95 95 454 [.mark], tr 97 122 454 [.mark],
     tr 126 126 454 [.mark], tr 128 255 454 [.mark]],
   [st 33 33 454, st 36 36 454, st 37 37 1, st 38 59 454, st 61 61 454, st 63 90 454,
     st 95 95 454, st 97 122 454, st 126 126 454, st 128 255 454],
   [st 33 33 455, st 35 35 453, st 36 36 455, st 37 37 5, st 38 59 455, st 61 61 455,
     st 63 63 456, st 64 90 455, st 95 95 455, st 97 122 455, st 126 126 455, st 128 255 455],
   [tr 33 33 457 [.mark], tr 35 35 453 [.mark, .saveQuery], tr 36 36 457 [.mark],
     tr 37 37 7 [.mark], tr 38 59 457 [.mark], tr 61 61 457 [.mark], tr 63 90 457 [.mark],
     tr 95 95 457 [.mark], tr 97 122 457 [.mark], tr 126 126 457 [.mark], tr 128 255 457 [.mark]],
   [st 33 33 457, tr 35 35 453 [.saveQuery], st 36 36 457, st 37 37 7, st 38 59 457, st 61 61 457,
     st 63 90 457, st 95 95 457, st 97 122 457, st 126 126 457, st 128 255 457],
   [st 33 33 455, st 35 35 453, st 36 36 455, st 37 37 5, st 38 46 455, st 47 47 459,
     st 48 59 455, st 61 61 455, st 63 63 456, st 64 90 455, st 95 95 455, st 97 122 455,
     st 126 126 455, st 128 255 455],
   [tr 2 2 9 [.mark], tr 35 35 453 [.mark, .saveHost], tr 37 37 31 [.mark], tr 38 46 467 [.mark],
     tr 47 47 455 [.mark, .saveHost], tr 48 48 490 [.mark], tr 49 49 504 [.mark],
     tr 50 50 506 [.mark], tr 51 57 505 [.mark], tr 58 58 468 [.mark, .saveHost],
     tr 63 63 456 [.mark, .saveHost], tr 64 64 469 [.mark, .saveUserinfo], tr 91 91 38 [.mark]]
     ++ plain 467 [.mark]],
  -- 460 to 479
  [[tr 35 35 453 [.saveHost], tr 47 47 455 [.saveHost], tr 58 58 461 [.saveHost],
    tr 63 63 456 [.saveHost]],
   [tr 35 35 453 [.mark, .savePort], tr 47 47 455 [.mark, .savePort], tr 48 57 462 [.mark],
     tr 63 63 456 [.mark, .savePort]],
   [tr 35 35 453 [.savePort], tr 47 47 455 [.savePort], st 48 57 462, tr 63 63 456 [.savePort]],
   [tr 35 35 453 [.saveHost], tr 47 47 455 [.saveHost], st 48 57 464, tr 58 58 461 [.saveHost],
     tr 63 63 456 [.saveHost]],
   [tr 35 35 453 [.saveHost], tr 47 47 455 [.saveHost], st 48 57 460, tr 58 58 461 [.saveHost],
     tr 63 63 456 [.saveHost]],
   [tr 35 35 453 [.saveHost], tr 47 47 455 [.saveHost], st 48 52 460, st 53 53 466, st 54 57 460,
     tr 58 58 461 [.saveHost], tr 63 63 456 [.saveHost]],
   [tr 35 35 453 [.saveHost], tr 47 47 455 [.saveHost], st 48 53 460, tr 58 58 461 [.saveHost],
     tr 63 63 456 [.saveHost]],
   [tr 35 35 453 [.saveHost], st 37 37 31, st 38 46 467, tr 47 47 455 [.saveHost], st 48 57 467,
     tr 58 58 468 [.saveHost], tr 63 63 456 [.saveHost], tr 64 64 469 [.saveUserinfo]]
     ++ plain 467 [],
   [tr 35 35 453 [.mark, .savePort], st 37 37 34, st 38 46 33, tr 47 47 455 [.mark, .savePort],
     tr 48 57 489 [.mark], st 58 59 33, tr 63 63 456 [.mark, .savePort],
     tr 64 64 469 [.saveUserinfo]] ++ plain 33 [],
   [tr 2 2 9 [.mark], tr 35 35 453 [.mark, .saveHost], tr 37 37 36 [.mark], tr 38 46 470 [.mark],
     tr 47 47 455 [.mark, .saveHost], tr 48 48 471 [.mark], tr 49 49 485 [.mark],
     tr 50 50 487 [.mark], tr 51 57 486 [.mark], tr 58 58 461 [.mark, .saveHost],
     tr 63 63 456 [.mark, .saveHost], tr 91 91 38 [.mark]] ++ plain 470 [.mark],
   [tr 35 35 453 [.saveHost], st 37 37 36, st 38 46 470, tr 47 47 455 [.saveHost], st 48 57 470,
     tr 58 58 461 [.saveHost], tr 63 63 456 [.saveHost]] ++ plain 470 [],
   [tr 35 35 453 [.saveHost], st 37 37 36, st 38 45 470, st 46 46 472, tr 47 47 455 [.saveHost],
     st 48 57 470, tr 58 58 461 [.saveHost], tr 63 63 456 [.saveHost]] ++ plain 470 [],
   [st 2 2 13, tr 35 35 453 [.saveHost], st 37 37 36, st 38 46 470, tr 47 47 455 [.saveHost],
     st 48 48 473, st 49 49 481, st 50 50 483, st 51 57 482, tr 58 58 461 [.saveHost],
     tr 63 63 456 [.saveHost]] ++ plain 470 [],
   [tr 35 35 453 [.saveHost], st 37 37 36, st 38 45 470, st 46 46 474, tr 47 47 455 [.saveHost],
     st 48 57 470, tr 58 58 461 [.saveHost], tr 63 63 456 [.saveHost]] ++ plain 470 [],
   [st 2 2 17, tr 35 35 453 [.saveHost], st 37 37 36, st 38 46 470, tr 47 47 455 [.saveHost],
     st 48 48 475, st 49 49 477, st 50 50 479, st 51 57 478, tr 58 58 461 [.saveHost],
     tr 63 63 456 [.saveHost]] ++ plain 470 [],
   [tr 35 35 453 [.saveHost], st 37 37 36, st 38 45 470, st 46 46 476, tr 47 47 455 [.saveHost],
     st 48 57 470, tr 58 58 461 [.saveHost], tr 63 63 456 [.saveHost]] ++ plain 470 [],
   [st 2 2 21, tr 35 35 453 [.saveHost], st 37 37 36, st 38 46 470, tr 47 47 455 [.saveHost],
     st 48 57 470, tr 58 58 461 [.saveHost], tr 63 63 456 [.saveHost]] ++ plain 470 [],
   [tr 35 35 453 [.saveHost], st 37 37 36, st 38 45 470, st 46 46 476, tr 47 47 455 [.saveHost],
     st 48 57 478, tr 58 58 461 [.saveHost], tr 63 63 456 [.saveHost]] ++ plain 470 [],
   [tr 35 35 453 [.saveHost], st 37 37 36, st 38 45 470, st 46 46 476, tr 47 47 455 [.saveHost],
     st 48 57 475, tr 58 58 461 [.saveHost], tr 63 63 456 [.saveHost]] ++ plain 470 [],
   [tr 35 35 453 [.saveHost], st 37 37 36, st 38 45 470, st 46 46 476, tr 47 47 455 [.saveHost],
     st 48 52 475, st 53 53 480, st 54 57 475, tr 58 58 461 [.saveHost],
     tr 63 63 456 [.saveHost]] ++ plain 470 []],
  -- 480 to 499
  [[tr 35 35 453 [.saveHost], st 37 37 36, st 38 45 470, st 46 46 476, tr 47 47 455 [.saveHost],
    st 48 53 475, st 54 57 470, tr 58 58 461 [.saveHost], tr 63 63 456 [.saveHost]]
    ++ plain 470 [],
   [tr 35 35 453 [.saveHost], st 37 37 36, st 38 45 470, st 46 46 474, tr 47 47 455 [.saveHost],
     st 48 57 482, tr 58 58 461 [.saveHost], tr 63 63 456 [.saveHost]] ++ plain 470 [],
   [tr 35 35 453 [.saveHost], st 37 37 36, st 38 45 470, st 46 46 474, tr 47 47 455 [.saveHost],
     st 48 57 473, tr 58 58 461 [.saveHost], tr 63 63 456 [.saveHost]] ++ plain 470 [],
   [tr 35 35 453 [.saveHost], st 37 37 36, st 38 45 470, st 46 46 474, tr 47 47 455 [.saveHost],
     st 48 52 473, st 53 53 484, st 54 57 473, tr 58 58 461 [.saveHost],
     tr 63 63 456 [.saveHost]] ++ plain 470 [],
   [tr 35 35 453 [.saveHost], st 37 37 36, st 38 45 470, st 46 46 474, tr 47 47 455 [.saveHost],
     st 48 53 473, st 54 57 470, tr 58 58 461 [.saveHost], tr 63 63 456 [.saveHost]]
     ++ plain 470 [],
   [tr 35 35 453 [.saveHost], st 37 37 36, st 38 45 470, st 46 46 472, tr 47 47 455 [.saveHost],
     st 48 57 486, tr 58 58 461 [.saveHost], tr 63 63 456 [.saveHost]] ++ plain 470 [],
   [tr 35 35 453 [.saveHost], st 37 37 36, st 38 45 470, st 46 46 472, tr 47 47 455 [.saveHost],
     st 48 57 471, tr 58 58 461 [.saveHost], tr 63 63 456 [.saveHost]] ++ plain 470 [],
   [tr 35 35 453 [.saveHost], st 37 37 36, st 38 45 470, st 46 46 472, tr 47 47 455 [.saveHost],
     st 48 52 471, st 53 53 488, st 54 57 471, tr 58 58 461 [.saveHost],
     tr 63 63 456 [.saveHost]] ++ plain 470 [],
   [tr 35 35 453 [.saveHost], st 37 37 36, st 38 45 470, st 46 46 472, tr 47 47 455 [.saveHost],
     st 48 53 471, st 54 57 470, tr 58 58 461 [.saveHost], tr 63 63 456 [.saveHost]]
     ++ plain 470 [],
   [tr 35 35 453 [.savePort], st 37 37 34, st 38 46 33, tr 47 47 455 [.savePort], st 48 57 489,
     st 58 59 33, tr 63 63 456 [.savePort], tr 64 64 469 [.saveUserinfo]] ++ plain 33 [],
   [tr 35 35 453 [.saveHost], st 37 37 31, st 38 45 467, st 46 46 491, tr 47 47 455 [.saveHost],
     st 48 57 467, tr 58 58 468 [.saveHost], tr 63 63 456 [.saveHost],
     tr 64 64 469 [.saveUserinfo]] ++ plain 467 [],
   [st 2 2 13, tr 35 35 453 [.saveHost], st 37 37 31, st 38 46 467, tr 47 47 455 [.saveHost],
     st 48 48 492, st 49 49 500, st 50 50 502, st 51 57 501, tr 58 58 468 [.saveHost],
     tr 63 63 456 [.saveHost], tr 64 64 469 [.saveUserinfo]] ++ plain 467 [],
   [tr 35 35 453 [.saveHost], st 37 37 31, st 38 45 467, st 46 46 493, tr 47 47 455 [.saveHost],
     st 48 57 467, tr 58 58 468 [.saveHost], tr 63 63 456 [.saveHost],
     tr 64 64 469 [.saveUserinfo]] ++ plain 467 [],
   [st 2 2 17, tr 35 35 453 [.saveHost], st 37 37 31, st 38 46 467, tr 47 47 455 [.saveHost],
     st 48 48 494, st 49 49 496, st 50 50 498, st 51 57 497, tr 58 58 468 [.saveHost],
     tr 63 63 456 [.saveHost], tr 64 64 469 [.saveUserinfo]] ++ plain 467 [],
   [tr 35 35 453 [.saveHost], st 37 37 31, st 38 45 467, st 46 46 495, tr 47 47 455 [.saveHost],
     st 48 57 467, tr 58 58 468 [.saveHost], tr 63 63 456 [.saveHost],
     tr 64 64 469 [.saveUserinfo]] ++ plain 467 [],
   [st 2 2 21, tr 35 35 453 [.saveHost], st 37 37 31, st 38 46 467, tr 47 47 455 [.saveHost],
     st 48 57 467, tr 58 58 468 [.saveHost], tr 63 63 456 [.saveHost],
     tr 64 64 469 [.saveUserinfo]] ++ plain 467 [],
   [tr 35 35 453 [.saveHost], st 37 37 31, st 38 45 467, st 46 46 495, tr 47 47 455 [.saveHost],
     st 48 57 497, tr 58 58 468 [.saveHost], tr 63 63 456 [.saveHost],
     tr 64 64 469 [.saveUserinfo]] ++ plain 467 [],
   [tr 35 35 453 [.saveHost], st 37 37 31, st 38 45 467, st 46 46 495, tr 47 47 455 [.saveHost],
     st 48 57 494, tr 58 58 468 [.saveHost], tr 63 63 456 [.saveHost],
     tr 64 64 469 [.saveUserinfo]] ++ plain 467 [],
   [tr 35 35 453 [.saveHost], st 37 37 31, st 38 45 467, st 46 46 495, tr 47 47 455 [.saveHost],
     st 48 52 494, st 53 53 499, st 54 57 494, tr 58 58 468 [.saveHost], tr 63 63 456 [.saveHost],
     tr 64 64 469 [.saveUserinfo]] ++ plain 467 [],
   [tr 35 35 453 [.saveHost], st 37 37 31, st 38 45 467, st 46 46 495, tr 47 47 455 [.saveHost],
     st 48 53 494, st 54 57 467, tr 58 58 468 [.saveHost], tr 63 63 456 [.saveHost],
     tr 64 64 469 [.saveUserinfo]] ++ plain 467 []],
  -- 500 to 519
  [[tr 35 35 453 [.saveHost], st 37 37 31, st 38 45 467, st 46 46 493, tr 47 47 455 [.saveHost],
    st 48 57 501, tr 58 58 468 [.saveHost], tr 63 63 456 [.saveHost],
    tr 64 64 469 [.saveUserinfo]] ++ plain 467 [],
   [tr 35 35 453 [.saveHost], st 37 37 31, st 38 45 467, st 46 46 493, tr 47 47 455 [.saveHost],
     st 48 57 492, tr 58 58 468 [.saveHost], tr 63 63 456 [.saveHost],
     tr 64 64 469 [.saveUserinfo]] ++ plain 467 [],
   [tr 35 35 453 [.saveHost], st 37 37 31, st 38 45 467, st 46 46 493, tr 47 47 455 [.saveHost],
     st 48 52 492, st 53 53 503, st 54 57 492, tr 58 58 468 [.saveHost], tr 63 63 456 [.saveHost],
     tr 64 64 469 [.saveUserinfo]] ++ plain 467 [],
   [tr 35 35 453 [.saveHost], st 37 37 31, st 38 45 467, st 46 46 493, tr 47 47 455 [.saveHost],
     st 48 53 492, st 54 57 467, tr 58 58 468 [.saveHost], tr 63 63 456 [.saveHost],
     tr 64 64 469 [.saveUserinfo]] ++ plain 467 [],
   [tr 35 35 453 [.saveHost], st 37 37 31, st 38 45 467, st 46 46 491, tr 47 47 455 [.saveHost],
     st 48 57 505, tr 58 58 468 [.saveHost], tr 63 63 456 [.saveHost],
     tr 64 64 469 [.saveUserinfo]] ++ plain 467 [],
   [tr 35 35 453 [.saveHost], st 37 37 31, st 38 45 467, st 46 46 491, tr 47 47 455 [.saveHost],
     st 48 57 490, tr 58 58 468 [.saveHost], tr 63 63 456 [.saveHost],
     tr 64 64 469 [.saveUserinfo]] ++ plain 467 [],
   [tr 35 35 453 [.saveHost], st 37 37 31, st 38 45 467, st 46 46 491, tr 47 47 455 [.saveHost],
     st 48 52 490, st 53 53 507, st 54 57 490, tr 58 58 468 [.saveHost], tr 63 63 456 [.saveHost],
     tr 64 64 469 [.saveUserinfo]] ++ plain 467 [],
   [tr 35 35 453 [.saveHost], st 37 37 31, st 38 45 467, st 46 46 491, tr 47 47 455 [.saveHost],
     st 48 53 490, st 54 57 467, tr 58 58 468 [.saveHost], tr 63 63 456 [.saveHost],
     tr 64 64 469 [.saveUserinfo]] ++ plain 467 [],
   [st 33 33 452, st 35 35 453, st 36 36 452, st 37 37 3, st 38 42 452, st 43 43 508,
     st 44 44 452, st 45 46 508, st 47 47 455, st 48 57 508, tr 58 58 509 [.saveScheme],
     st 59 59 452, st 61 61 452, st 63 63 456, st 64 64 452, st 65 90 508, st 95 95 452,
     st 97 122 508, st 126 126 452, st 128 255 452],
   [st 33 33 455, st 35 35 453, st 36 36 455, st 37 37 5, st 38 46 455, st 47 47 510,
     st 48 59 455, st 61 61 455, st 63 63 456, st 64 90 455, st 95 95 455, st 97 122 455,
     st 126 126 455, st 128 255 455],
   [st 33 33 455, st 35 35 453, st 36 36 455, st 37 37 5, st 38 46 455, st 47 47 511,
     st 48 59 455, st 61 61 455, st 63 63 456, st 64 90 455, st 95 95 455, st 97 122 455,
     st 126 126 455, st 128 255 455],
   [tr 2 2 229 [.mark], tr 35 35 453 [.mark, .saveHost, .savePath], tr 37 37 253 [.mark],
     tr 38 46 520 [.mark], tr 47 47 513 [.mark, .saveHost], tr 48 48 543 [.mark],
     tr 49 49 557 [.mark], tr 50 50 559 [.mark], tr 51 57 558 [.mark], tr 58 58 521 [.mark,
     .saveHost], tr 63 63 456 [.mark, .saveHost, .savePath], tr 64 64 522 [.mark, .saveUserinfo],
     tr 91 91 260 [.mark]] ++ plain 520 [.mark],
   [tr 35 35 453 [.saveHost, .mark, .savePath], tr 47 47 513 [.saveHost, .mark],
     tr 58 58 514 [.saveHost], tr 63 63 456 [.saveHost, .mark, .savePath]],
   [st 33 33 513, tr 35 35 453 [.savePath], st 36 36 513, st 37 37 243, st 38 59 513,
     st 61 61 513, tr 63 63 456 [.savePath], st 64 90 513, st 95 95 513, st 97 122 513,
     st 126 126 513, st 128 255 513],
   [tr 35 35 453 [.mark, .savePort, .savePath], tr 47 47 513 [.mark, .savePort],
     tr 48 57 515 [.mark], tr 63 63 456 [.mark, .savePort, .savePath]],
   [tr 35 35 453 [.savePort, .mark, .savePath], tr 47 47 513 [.savePort, .mark], st 48 57 515,
     tr 63 63 456 [.savePort, .mark, .savePath]],
   [tr 35 35 453 [.saveHost, .mark, .savePath], tr 47 47 513 [.saveHost, .mark], st 48 57 517,
     tr 58 58 514 [.saveHost], tr 63 63 456 [.saveHost, .mark, .savePath]],
   [tr 35 35 453 [.saveHost, .mark, .savePath], tr 47 47 513 [.saveHost, .mark], st 48 57 512,
     tr 58 58 514 [.saveHost], tr 63 63 456 [.saveHost, .mark, .savePath]],
   [tr 35 35 453 [.saveHost, .mark, .savePath], tr 47 47 513 [.saveHost, .mark], st 48 52 512,
     st 53 53 519, st 54 57 512, tr 58 58 514 [.saveHost], tr 63 63 456 [.saveHost, .mark,
     .savePath]],
   [tr 35 35 453 [.saveHost, .mark, .savePath], tr 47 47 513 [.saveHost, .mark], st 48 53 512,
     tr 58 58 514 [.saveHost], tr 63 63 456 [.saveHost, .mark, .savePath]]],
  -- 520 to 539
  [[tr 35 35 453 [.saveHost, .mark, .savePath], st 37 37 253, st 38 46 520,
    tr 47 47 513 [.saveHost, .mark], st 48 57 520, tr 58 58 521 [.saveHost],
    tr 63 63 456 [.saveHost, .mark, .savePath], tr 64 64 522 [.saveUserinfo]] ++ plain 520 [],
   [tr 35 35 453 [.mark, .savePort, .savePath], st 37 37 256, st 38 46 255, tr 47 47 513 [.mark,
     .savePort], tr 48 57 542 [.mark], st 58 59 255, tr 63 63 456 [.mark, .savePort, .savePath],
     tr 64 64 522 [.saveUserinfo]] ++ plain 255 [],
   [tr 2 2 229 [.mark], tr 35 35 453 [.mark, .saveHost, .savePath], tr 37 37 258 [.mark],
     tr 38 46 523 [.mark], tr 47 47 513 [.mark, .saveHost], tr 48 48 524 [.mark],
     tr 49 49 538 [.mark], tr 50 50 540 [.mark], tr 51 57 539 [.mark], tr 58 58 514 [.mark,
     .saveHost], tr 63 63 456 [.mark, .saveHost, .savePath], tr 91 91 260 [.mark]]
     ++ plain 523 [.mark],
   [tr 35 35 453 [.saveHost, .mark, .savePath], st 37 37 258, st 38 46 523,
     tr 47 47 513 [.saveHost, .mark], st 48 57 523, tr 58 58 514 [.saveHost],
     tr 63 63 456 [.saveHost, .mark, .savePath]] ++ plain 523 [],
   [tr 35 35 453 [.saveHost, .mark, .savePath], st 37 37 258, st 38 45 523, st 46 46 525,
     tr 47 47 513 [.saveHost, .mark], st 48 57 523, tr 58 58 514 [.saveHost],
     tr 63 63 456 [.saveHost, .mark, .savePath]] ++ plain 523 [],
   [st 2 2 233, tr 35 35 453 [.saveHost, .mark, .savePath], st 37 37 258, st 38 46 523,
     tr 47 47 513 [.saveHost, .mark], st 48 48 526, st 49 49 534, st 50 50 536, st 51 57 535,
     tr 58 58 514 [.saveHost], tr 63 63 456 [.saveHost, .mark, .savePath]] ++ plain 523 [],
   [tr 35 35 453 [.saveHost, .mark, .savePath], st 37 37 258, st 38 45 523, st 46 46 527,
     tr 47 47 513 [.saveHost, .mark], st 48 57 523, tr 58 58 514 [.saveHost],
     tr 63 63 456 [.saveHost, .mark, .savePath]] ++ plain 523 [],
   [st 2 2 237, tr 35 35 453 [.saveHost, .mark, .savePath], st 37 37 258, st 38 46 523,
     tr 47 47 513 [.saveHost, .mark], st 48 48 528, st 49 49 530, st 50 50 532, st 51 57 531,
     tr 58 58 514 [.saveHost], tr 63 63 456 [.saveHost, .mark, .savePath]] ++ plain 523 [],
   [tr 35 35 453 [.saveHost, .mark, .savePath], st 37 37 258, st 38 45 523, st 46 46 529,
     tr 47 47 513 [.saveHost, .mark], st 48 57 523, tr 58 58 514 [.saveHost],
     tr 63 63 456 [.saveHost, .mark, .savePath]] ++ plain 523 [],
   [st 2 2 241, tr 35 35 453 [.saveHost, .mark, .savePath], st 37 37 258, st 38 46 523,
     tr 47 47 513 [.saveHost, .mark], st 48 57 523, tr 58 58 514 [.saveHost],
     tr 63 63 456 [.saveHost, .mark, .savePath]] ++ plain 523 [],
   [tr 35 35 453 [.saveHost, .mark, .savePath], st 37 37 258, st 38 45 523, st 46 46 529,
     tr 47 47 513 [.saveHost, .mark], st 48 57 531, tr 58 58 514 [.saveHost],
     tr 63 63 456 [.saveHost, .mark, .savePath]] ++ plain 523 [],
   [tr 35 35 453 [.saveHost, .mark, .savePath], st 37 37 258, st 38 45 523, st 46 46 529,
     tr 47 47 513 [.saveHost, .mark], st 48 57 528, tr 58 58 514 [.saveHost],
     tr 63 63 456 [.saveHost, .mark, .savePath]] ++ plain 523 [],
   [tr 35 35 453 [.saveHost, .mark, .savePath], st 37 37 258, st 38 45 523, st 46 46 529,
     tr 47 47 513 [.saveHost, .mark], st 48 52 528, st 53 53 533, st 54 57 528,
     tr 58 58 514 [.saveHost], tr 63 63 456 [.saveHost, .mark, .savePath]] ++ plain 523 [],
   [tr 35 35 453 [.saveHost, .mark, .savePath], st 37 37 258, st 38 45 523, st 46 46 529,
     tr 47 47 513 [.saveHost, .mark], st 48 53 528, st 54 57 523, tr 58 58 514 [.saveHost],
     tr 63 63 456 [.saveHost, .mark, .savePath]] ++ plain 523 [],
   [tr 35 35 453 [.saveHost, .mark, .savePath], st 37 37 258, st 38 45 523, st 46 46 527,
     tr 47 47 513 [.saveHost, .mark], st 48 57 535, tr 58 58 514 [.saveHost],
     tr 63 63 456 [.saveHost, .mark, .savePath]] ++ plain 523 [],
   [tr 35 35 453 [.saveHost, .mark, .savePath], st 37 37 258, st 38 45 523, st 46 46 527,
     tr 47 47 513 [.saveHost, .mark], st 48 57 526, tr 58 58 514 [.saveHost],
     tr 63 63 456 [.saveHost, .mark, .savePath]] ++ plain 523 [],
   [tr 35 35 453 [.saveHost, .mark, .savePath], st 37 37 258, st 38 45 523, st 46 46 527,
     tr 47 47 513 [.saveHost, .mark], st 48 52 526, st 53 53 537, st 54 57 526,
     tr 58 58 514 [.saveHost], tr 63 63 456 [.saveHost, .mark, .savePath]] ++ plain 523 [],
   [tr 35 35 453 [.saveHost, .mark, .savePath], st 37 37 258, st 38 45 523, st 46 46 527,
     tr 47 47 513 [.saveHost, .mark], st 48 53 526, st 54 57 523, tr 58 58 514 [.saveHost],
     tr 63 63 456 [.saveHost, .mark, .savePath]] ++ plain 523 [],
   [tr 35 35 453 [.saveHost, .mark, .savePath], st 37 37 258, st 38 45 523, st 46 46 525,
     tr 47 47 513 [.saveHost, .mark], st 48 57 539, tr 58 58 514 [.saveHost],
     tr 63 63 456 [.saveHost, .mark, .savePath]] ++ plain 523 [],
   [tr 35 35 453 [.saveHost, .mark, .savePath], st 37 37 258, st 38 45 523, st 46 46 525,
     tr 47 47 513 [.saveHost, .mark], st 48 57 524, tr 58 58 514 [.saveHost],
     tr 63 63 456 [.saveHost, .mark, .savePath]] ++ plain 523 []],
  -- 540 to 559
  [[tr 35 35 453 [.saveHost, .mark, .savePath], st 37 37 258, st 38 45 523, st 46 46 525,
    tr 47 47 513 [.saveHost, .mark], st 48 52 524, st 53 53 541, st 54 57 524,
    tr 58 58 514 [.saveHost], tr 63 63 456 [.saveHost, .mark, .savePath]] ++ plain 523 [],
   [tr 35 35 453 [.saveHost, .mark, .savePath], st 37 37 258, st 38 45 523, st 46 46 525,
     tr 47 47 513 [.saveHost, .mark], st 48 53 524, st 54 57 523, tr 58 58 514 [.saveHost],
     tr 63 63 456 [.saveHost, .mark, .savePath]] ++ plain 523 [],
   [tr 35 35 453 [.savePort, .mark, .savePath], st 37 37 256, st 38 46 255,
     tr 47 47 513 [.savePort, .mark], st 48 57 542, st 58 59 255, tr 63 63 456 [.savePort, .mark,
     .savePath], tr 64 64 522 [.saveUserinfo]] ++ plain 255 [],
   [tr 35 35 453 [.saveHost, .mark, .savePath], st 37 37 253, st 38 45 520, st 46 46 544,
     tr 47 47 513 [.saveHost, .mark], st 48 57 520, tr 58 58 521 [.saveHost],
     tr 63 63 456 [.saveHost, .mark, .savePath], tr 64 64 522 [.saveUserinfo]] ++ plain 520 [],
   [st 2 2 233, tr 35 35 453 [.saveHost, .mark, .savePath], st 37 37 253, st 38 46 520,
     tr 47 47 513 [.saveHost, .mark], st 48 48 545, st 49 49 553, st 50 50 555, st 51 57 554,
     tr 58 58 521 [.saveHost], tr 63 63 456 [.saveHost, .mark, .savePath],
     tr 64 64 522 [.saveUserinfo]] ++ plain 520 [],
   [tr 35 35 453 [.saveHost, .mark, .savePath], st 37 37 253, st 38 45 520, st 46 46 546,
     tr 47 47 513 [.saveHost, .mark], st 48 57 520, tr 58 58 521 [.saveHost],
     tr 63 63 456 [.saveHost, .mark, .savePath], tr 64 64 522 [.saveUserinfo]] ++ plain 520 [],
   [st 2 2 237, tr 35 35 453 [.saveHost, .mark, .savePath], st 37 37 253, st 38 46 520,
     tr 47 47 513 [.saveHost, .mark], st 48 48 547, st 49 49 549, st 50 50 551, st 51 57 550,
     tr 58 58 521 [.saveHost], tr 63 63 456 [.saveHost, .mark, .savePath],
     tr 64 64 522 [.saveUserinfo]] ++ plain 520 [],
   [tr 35 35 453 [.saveHost, .mark, .savePath], st 37 37 253, st 38 45 520, st 46 46 548,
     tr 47 47 513 [.saveHost, .mark], st 48 57 520, tr 58 58 521 [.saveHost],
     tr 63 63 456 [.saveHost, .mark, .savePath], tr 64 64 522 [.saveUserinfo]] ++ plain 520 [],
   [st 2 2 241, tr 35 35 453 [.saveHost, .mark, .savePath], st 37 37 253, st 38 46 520,
     tr 47 47 513 [.saveHost, .mark], st 48 57 520, tr 58 58 521 [.saveHost],
     tr 63 63 456 [.saveHost, .mark, .savePath], tr 64 64 522 [.saveUserinfo]] ++ plain 520 [],
   [tr 35 35 453 [.saveHost, .mark, .savePath], st 37 37 253, st 38 45 520, st 46 46 548,
     tr 47 47 513 [.saveHost, .mark], st 48 57 550, tr 58 58 521 [.saveHost],
     tr 63 63 456 [.saveHost, .mark, .savePath], tr 64 64 522 [.saveUserinfo]] ++ plain 520 [],
   [tr 35 35 453 [.saveHost, .mark, .savePath], st 37 37 253, st 38 45 520, st 46 46 548,
     tr 47 47 513 [.saveHost, .mark], st 48 57 547, tr 58 58 521 [.saveHost],
     tr 63 63 456 [.saveHost, .mark, .savePath], tr 64 64 522 [.saveUserinfo]] ++ plain 520 [],
   [tr 35 35 453 [.saveHost, .mark, .savePath], st 37 37 253, st 38 45 520, st 46 46 548,
     tr 47 47 513 [.saveHost, .mark], st 48 52 547, st 53 53 552, st 54 57 547,
     tr 58 58 521 [.saveHost], tr 63 63 456 [.saveHost, .mark, .savePath],
     tr 64 64 522 [.saveUserinfo]] ++ plain 520 [],
   [tr 35 35 453 [.saveHost, .mark, .savePath], st 37 37 253, st 38 45 520, st 46 46 548,
     tr 47 47 513 [.saveHost, .mark], st 48 53 547, st 54 57 520, tr 58 58 521 [.saveHost],
     tr 63 63 456 [.saveHost, .mark, .savePath], tr 64 64 522 [.saveUserinfo]] ++ plain 520 [],
   [tr 35 35 453 [.saveHost, .mark, .savePath], st 37 37 253, st 38 45 520, st 46 46 546,
     tr 47 47 513 [.saveHost, .mark], st 48 57 554, tr 58 58 521 [.saveHost],
     tr 63 63 456 [.saveHost, .mark, .savePath], tr 64 64 522 [.saveUserinfo]] ++ plain 520 [],
   [tr 35 35 453 [.saveHost, .mark, .savePath], st 37 37 253, st 38 45 520, st 46 46 546,
     tr 47 47 513 [.saveHost, .mark], st 48 57 545, tr 58 58 521 [.saveHost],
     tr 63 63 456 [.saveHost, .mark, .savePath], tr 64 64 522 [.saveUserinfo]] ++ plain 520 [],
   [tr 35 35 453 [.saveHost, .mark, .savePath], st 37 37 253, st 38 45 520, st 46 46 546,
     tr 47 47 513 [.saveHost, .mark], st 48 52 545, st 53 53 556, st 54 57 545,
     tr 58 58 521 [.saveHost], tr 63 63 456 [.saveHost, .mark, .savePath],
     tr 64 64 522 [.saveUserinfo]] ++ plain 520 [],
   [tr 35 35 453 [.saveHost, .mark, .savePath], st 37 37 253, st 38 45 520, st 46 46 546,
     tr 47 47 513 [.saveHost, .mark], st 48 53 545, st 54 57 520, tr 58 58 521 [.saveHost],
     tr 63 63 456 [.saveHost, .mark, .savePath], tr 64 64 522 [.saveUserinfo]] ++ plain 520 [],
   [tr 35 35 453 [.saveHost, .mark, .savePath], st 37 37 253, st 38 45 520, st 46 46 544,
     tr 47 47 513 [.saveHost, .mark], st 48 57 558, tr 58 58 521 [.saveHost],
     tr 63 63 456 [.saveHost, .mark, .savePath], tr 64 64 522 [.saveUserinfo]] ++ plain 520 [],
   [tr 35 35 453 [.saveHost, .mark, .savePath], st 37 37 253, st 38 45 520, st 46 46 544,
     tr 47 47 513 [.saveHost, .mark], st 48 57 543, tr 58 58 521 [.saveHost],
     tr 63 63 456 [.saveHost, .mark, .savePath], tr 64 64 522 [.saveUserinfo]] ++ plain 520 [],
   [tr 35 35 453 [.saveHost, .mark, .savePath], st 37 37 253, st 38 45 520, st 46 46 544,
     tr 47 47 513 [.saveHost, .mark], st 48 52 543, st 53 53 560, st 54 57 543,
     tr 58 58 521 [.saveHost], tr 63 63 456 [.saveHost, .mark, .savePath],
     tr 64 64 522 [.saveUserinfo]] ++ plain 520 []],
  -- 560 to 560
  [[tr 35 35 453 [.saveHost, .mark, .savePath], st 37 37 253, st 38 45 520, st 46 46 544,
    tr 47 47 513 [.saveHost, .mark], st 48 53 543, st 54 57 520, tr 58 58 521 [.saveHost],
    tr 63 63 456 [.saveHost, .mark, .savePath], tr 64 64 522 [.saveUserinfo]] ++ plain 520 []]]

/-- The actions at the end of the text. -/
def eofActions (cs : Nat) : List Action :=
  if cs = 462 ∨ cs = 489 then [.savePort]
  else if cs = 460 ∨ 463 ≤ cs ∧ cs ≤ 467 ∨ 470 ≤ cs ∧ cs ≤ 488 ∨ 490 ≤ cs ∧ cs ≤ 507 then
    [.saveHost]
  else if cs = 513 then [.savePath]
  else if cs = 457 then [.saveQuery]
  else if cs = 454 then [.saveFragment]
  else if cs = 456 then [.mark, .saveQuery]
  else if cs = 453 then [.mark, .saveFragment]
  else if cs = 461 ∨ cs = 468 then [.mark, .savePort]
  else if cs = 459 ∨ cs = 469 then [.mark, .saveHost]
  else if cs = 514 ∨ cs = 521 then [.mark, .savePort, .savePath]
  else if cs = 511 ∨ cs = 522 then [.mark, .saveHost, .savePath]
  else if cs = 515 ∨ cs = 542 then [.savePort, .mark, .savePath]
  else if cs = 512 ∨ 516 ≤ cs ∧ cs ≤ 520 ∨ 523 ≤ cs ∧ cs ≤ 541 ∨ 543 ≤ cs ∧ cs ≤ 560 then
    [.saveHost, .mark, .savePath]
  else []

end Uri

end CxkFramework
