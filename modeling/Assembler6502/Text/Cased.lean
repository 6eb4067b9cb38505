import Assembler6502.Text.Basic

/-!
# Cased characters

Whether a capital sigma ends a word depends on its neighbours. A neighbour is looked for past the
characters that case ignores, and it counts if it is cased: an upper-case, lower-case or title-case
letter or letter-like sign.
-/

namespace Assembler6502.Text

/-- Cased characters below U+0800. -/
def casedRangesEarly : List (Nat × Nat) := [
  (0x41, 0x5a), (0x61, 0x7a), (0xaa, 0xaa), (0xb5, 0xb5), (0xba, 0xba), (0xc0, 0xd6), (0xd8, 0xf6),
  (0xf8, 0x1ba), (0x1bc, 0x1bf), (0x1c4, 0x293), (0x295, 0x2af), (0x370, 0x373), (0x376, 0x377),
  (0x37b, 0x37d), (0x37f, 0x37f), (0x386, 0x386), (0x388, 0x38a), (0x38c, 0x38c), (0x38e, 0x3a1),
  (0x3a3, 0x3f5), (0x3f7, 0x481), (0x48a, 0x52f), (0x531, 0x556), (0x560, 0x588)]

/-- Cased characters from U+0800 to U+1FFF. -/
def casedRangesSyllabic : List (Nat × Nat) := [
  (0x10a0, 0x10c5), (0x10c7, 0x10c7), (0x10cd, 0x10cd), (0x10d0, 0x10fa), (0x10fd, 0x10ff),
  (0x13a0, 0x13f5), (0x13f8, 0x13fd), (0x1c80, 0x1c88), (0x1c90, 0x1cba), (0x1cbd, 0x1cbf),
  (0x1d00, 0x1d2b), (0x1d6b, 0x1d77), (0x1d79, 0x1d9a), (0x1e00, 0x1f15), (0x1f18, 0x1f1d),
  (0x1f20, 0x1f45), (0x1f48, 0x1f4d), (0x1f50, 0x1f57), (0x1f59, 0x1f59), (0x1f5b, 0x1f5b),
  (0x1f5d, 0x1f5d), (0x1f5f, 0x1f7d), (0x1f80, 0x1fb4), (0x1fb6, 0x1fbc), (0x1fbe, 0x1fbe),
  (0x1fc2, 0x1fc4), (0x1fc6, 0x1fcc), (0x1fd0, 0x1fd3), (0x1fd6, 0x1fdb), (0x1fe0, 0x1fec),
  (0x1ff2, 0x1ff4), (0x1ff6, 0x1ffc)]

/-- Cased characters from U+2000 to U+AFFF. -/
def casedRangesSymbol : List (Nat × Nat) := [
  (0x2102, 0x2102), (0x2107, 0x2107), (0x210a, 0x2113), (0x2115, 0x2115), (0x2119, 0x211d),
  (0x2124, 0x2124), (0x2126, 0x2126), (0x2128, 0x2128), (0x212a, 0x212d), (0x212f, 0x2134),
  (0x2139, 0x2139), (0x213c, 0x213f), (0x2145, 0x2149), (0x214e, 0x214e), (0x2160, 0x217f),
  (0x2183, 0x2184), (0x24b6, 0x24e9), (0x2c00, 0x2c7b), (0x2c7e, 0x2ce4), (0x2ceb, 0x2cee),
  (0x2cf2, 0x2cf3), (0x2d00, 0x2d25), (0x2d27, 0x2d27), (0x2d2d, 0x2d2d), (0xa640, 0xa66d),
  (0xa680, 0xa69b), (0xa722, 0xa76f), (0xa771, 0xa787), (0xa78b, 0xa78e), (0xa790, 0xa7ca),
  (0xa7d0, 0xa7d1), (0xa7d3, 0xa7d3), (0xa7d5, 0xa7d9), (0xa7f5, 0xa7f6), (0xa7fa, 0xa7fa),
  (0xab30, 0xab5a), (0xab60, 0xab68), (0xab70, 0xabbf)]

/-- Cased characters from U+B000 to U+FFFF. -/
def casedRangesLate : List (Nat × Nat) := [
  (0xfb00, 0xfb06), (0xfb13, 0xfb17), (0xff21, 0xff3a), (0xff41, 0xff5a)]

/-- Cased characters from U+10000 to U+117FF. -/
def casedRangesAncient : List (Nat × Nat) := [
  (0x10400, 0x1044f), (0x104b0, 0x104d3), (0x104d8, 0x104fb), (0x10570, 0x1057a),
  (0x1057c, 0x1058a), (0x1058c, 0x10592), (0x10594, 0x10595), (0x10597, 0x105a1),
  (0x105a3, 0x105b1), (0x105b3, 0x105b9), (0x105bb, 0x105bc), (0x10c80, 0x10cb2),
  (0x10cc0, 0x10cf2)]

/-- Cased characters from U+11800 to U+1FFFF. -/
def casedRangesModern : List (Nat × Nat) := [
  (0x118a0, 0x118df), (0x16e40, 0x16e7f), (0x1d400, 0x1d454), (0x1d456, 0x1d49c),
  (0x1d49e, 0x1d49f), (0x1d4a2, 0x1d4a2), (0x1d4a5, 0x1d4a6), (0x1d4a9, 0x1d4ac),
  (0x1d4ae, 0x1d4b9), (0x1d4bb, 0x1d4bb), (0x1d4bd, 0x1d4c3), (0x1d4c5, 0x1d505),
  (0x1d507, 0x1d50a), (0x1d50d, 0x1d514), (0x1d516, 0x1d51c), (0x1d51e, 0x1d539),
  (0x1d53b, 0x1d53e), (0x1d540, 0x1d544), (0x1d546, 0x1d546), (0x1d54a, 0x1d550),
  (0x1d552, 0x1d6a5), (0x1d6a8, 0x1d6c0), (0x1d6c2, 0x1d6da), (0x1d6dc, 0x1d6fa),
  (0x1d6fc, 0x1d714), (0x1d716, 0x1d734), (0x1d736, 0x1d74e), (0x1d750, 0x1d76e),
  (0x1d770, 0x1d788), (0x1d78a, 0x1d7a8), (0x1d7aa, 0x1d7c2), (0x1d7c4, 0x1d7cb),
  (0x1df00, 0x1df09), (0x1df0b, 0x1df1e), (0x1e900, 0x1e943), (0x1f130, 0x1f149),
  (0x1f150, 0x1f169), (0x1f170, 0x1f189)]

/-- The cased characters that are not ignored when a neighbour is looked for. -/
def casedRanges : List (Nat × Nat) :=
  casedRangesEarly ++ casedRangesSyllabic ++ casedRangesSymbol ++ casedRangesLate ++
    casedRangesAncient ++ casedRangesModern

/-- A letter or sign with case. -/
def isCased (c : Char) : Bool :=
  inRanges casedRanges c

end Assembler6502.Text
