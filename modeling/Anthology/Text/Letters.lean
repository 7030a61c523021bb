/-
**Letters and numbers.**

A character is a letter or a number when the Unicode standard counts it as alphabetic or numeric, in
any script.  In ASCII these are the letters and the digits; outside ASCII most characters are, so
the table lists those that are not.

Main definitions:

* `Anthology.Text.signs` — the table;
* `Anthology.Text.isLetterOrNumber` — the test.

Main results:

* `Anthology.Text.isLetterOrNumber_of_isAlphanum` — letters and digits of ASCII pass the test.
-/

set_option relaxedAutoImplicit false
set_option autoImplicit false

namespace Anthology.Text

/-- The characters outside ASCII that are neither letters nor numbers: the first and the last of
each run, in ascending order.  A few places at which there is no character count with the run
before them. -/
def signs : List (Nat × Nat) :=
  [(0x80, 0xa9), (0xab, 0xb1), (0xb4, 0xb4), (0xb6, 0xb8), (0xbb, 0xbb), (0xbf, 0xbf),
  (0xd7, 0xd7), (0xf7, 0xf7), (0x2c2, 0x2c5), (0x2d2, 0x2df), (0x2e5, 0x2eb), (0x2ed, 0x2ed),
  (0x2ef, 0x344), (0x346, 0x36f), (0x375, 0x375), (0x37e, 0x37e), (0x384, 0x385), (0x387, 0x387),
  (0x3f6, 0x3f6), (0x482, 0x489), (0x55a, 0x55f), (0x589, 0x5af), (0x5be, 0x5be), (0x5c0, 0x5c0),
  (0x5c3, 0x5c3), (0x5c6, 0x5c6), (0x5f3, 0x60f), (0x61b, 0x61f), (0x658, 0x658), (0x66a, 0x66d),
  (0x6d4, 0x6d4), (0x6dd, 0x6e0), (0x6e9, 0x6ec), (0x6fd, 0x6fe), (0x700, 0x70f), (0x740, 0x74c),
  (0x7eb, 0x7f3), (0x7f6, 0x7f9), (0x7fd, 0x7ff), (0x818, 0x819), (0x82d, 0x83f), (0x859, 0x85f),
  (0x888, 0x888), (0x890, 0x89f), (0x8ca, 0x8d3), (0x8e0, 0x8e2), (0x8ea, 0x8ef), (0x93c, 0x93c),
  (0x94d, 0x94d), (0x951, 0x954), (0x964, 0x965), (0x970, 0x970), (0x9bc, 0x9bc), (0x9cd, 0x9cd),
  (0x9f2, 0x9f3), (0x9fa, 0x9fb), (0x9fd, 0xa00), (0xa3c, 0xa3d), (0xa4d, 0xa50), (0xa76, 0xa80),
  (0xabc, 0xabc), (0xacd, 0xacf), (0xaf0, 0xaf8), (0xafd, 0xb00), (0xb3c, 0xb3c), (0xb4d, 0xb55),
  (0xb70, 0xb70), (0xbcd, 0xbcf), (0xbf3, 0xbff), (0xc3c, 0xc3c), (0xc4d, 0xc54), (0xc77, 0xc77),
  (0xc7f, 0xc7f), (0xc84, 0xc84), (0xcbc, 0xcbc), (0xccd, 0xcd4), (0xd3b, 0xd3c), (0xd4d, 0xd4d),
  (0xd4f, 0xd53), (0xd79, 0xd79), (0xdca, 0xdce), (0xdf4, 0xe00), (0xe3f, 0xe3f), (0xe47, 0xe4c),
  (0xe4e, 0xe4f), (0xe5a, 0xe80), (0xeba, 0xeba), (0xec8, 0xecc), (0xece, 0xecf), (0xee0, 0xeff),
  (0xf01, 0xf1f), (0xf34, 0xf3f), (0xf84, 0xf87), (0xfbe, 0xfff), (0x1037, 0x1037),
  (0x1039, 0x103a), (0x104a, 0x104f), (0x109e, 0x109f), (0x10fb, 0x10fb), (0x135d, 0x1368),
  (0x1390, 0x139f), (0x1400, 0x1400), (0x166d, 0x166e), (0x1680, 0x1680), (0x169b, 0x169f),
  (0x16eb, 0x16ed), (0x1714, 0x171e), (0x1734, 0x173f), (0x17b4, 0x17b5), (0x17c9, 0x17d6),
  (0x17d8, 0x17db), (0x17dd, 0x17df), (0x1800, 0x180f), (0x1939, 0x1945), (0x19de, 0x19ff),
  (0x1a1e, 0x1a1f), (0x1a60, 0x1a60), (0x1a75, 0x1a7f), (0x1aa0, 0x1aa6), (0x1aa8, 0x1abe),
  (0x1ac1, 0x1acb), (0x1acf, 0x1aff), (0x1b34, 0x1b34), (0x1b44, 0x1b44), (0x1b5a, 0x1b7f),
  (0x1baa, 0x1bab), (0x1be6, 0x1be6), (0x1bf2, 0x1bff), (0x1c37, 0x1c3f), (0x1c7e, 0x1c7f),
  (0x1cc0, 0x1ce8), (0x1ced, 0x1ced), (0x1cf4, 0x1cf4), (0x1cf7, 0x1cf9), (0x1dc0, 0x1de6),
  (0x1df5, 0x1dff), (0x1fbd, 0x1fbd), (0x1fbf, 0x1fc1), (0x1fcd, 0x1fcf), (0x1fdd, 0x1fdf),
  (0x1fed, 0x1ff1), (0x1ffd, 0x206f), (0x207a, 0x207e), (0x208a, 0x208f), (0x20a0, 0x2101),
  (0x2103, 0x2106), (0x2108, 0x2109), (0x2114, 0x2114), (0x2116, 0x2118), (0x211e, 0x2123),
  (0x2125, 0x2125), (0x2127, 0x2127), (0x2129, 0x2129), (0x212e, 0x212e), (0x213a, 0x213b),
  (0x2140, 0x2144), (0x214a, 0x214d), (0x214f, 0x214f), (0x218a, 0x245f), (0x249c, 0x24b5),
  (0x2500, 0x2775), (0x2794, 0x2bff), (0x2ce5, 0x2cea), (0x2cef, 0x2cf1), (0x2cf9, 0x2cfc),
  (0x2cfe, 0x2cff), (0x2d70, 0x2d7f), (0x2e00, 0x2e2e), (0x2e30, 0x3004), (0x3008, 0x3020),
  (0x302a, 0x3030), (0x3036, 0x3037), (0x303d, 0x3040), (0x3099, 0x309c), (0x30a0, 0x30a0),
  (0x30fb, 0x30fb), (0x3190, 0x3191), (0x3196, 0x319f), (0x31c0, 0x31ef), (0x3200, 0x321f),
  (0x322a, 0x3247), (0x3250, 0x3250), (0x3260, 0x327f), (0x328a, 0x32b0), (0x32c0, 0x33ff),
  (0x4dc0, 0x4dff), (0xa490, 0xa4cf), (0xa4fe, 0xa4ff), (0xa60d, 0xa60f), (0xa62c, 0xa63f),
  (0xa66f, 0xa673), (0xa67c, 0xa67e), (0xa6f0, 0xa716), (0xa720, 0xa721), (0xa789, 0xa78a),
  (0xa7da, 0xa7f1), (0xa806, 0xa806), (0xa828, 0xa82f), (0xa836, 0xa83f), (0xa874, 0xa87f),
  (0xa8c4, 0xa8c4), (0xa8ce, 0xa8cf), (0xa8e0, 0xa8f1), (0xa8f8, 0xa8fa), (0xa8fc, 0xa8fc),
  (0xa92b, 0xa92f), (0xa953, 0xa95f), (0xa9b3, 0xa9b3), (0xa9c0, 0xa9ce), (0xa9de, 0xa9df),
  (0xaa5c, 0xaa5f), (0xaa77, 0xaa79), (0xaabf, 0xaabf), (0xaac1, 0xaac1), (0xaac3, 0xaada),
  (0xaade, 0xaadf), (0xaaf0, 0xaaf1), (0xaaf6, 0xab00), (0xab5b, 0xab5b), (0xab6a, 0xab6f),
  (0xabeb, 0xabef), (0xd7fc, 0xf8ff), (0xfada, 0xfaff), (0xfb29, 0xfb29), (0xfbb2, 0xfbd2),
  (0xfd3e, 0xfd4f), (0xfdcf, 0xfdef), (0xfdfc, 0xfe6f), (0xfeff, 0xff0f), (0xff1a, 0xff20),
  (0xff3b, 0xff40), (0xff5b, 0xff65), (0xffe0, 0xffff), (0x1005e, 0x1007f), (0x10100, 0x10106),
  (0x10137, 0x1013f), (0x10179, 0x10189), (0x1018c, 0x1027f), (0x102e0, 0x102e0),
  (0x1039f, 0x1039f), (0x103d0, 0x103d0), (0x103d6, 0x103ff), (0x1056f, 0x1056f),
  (0x105bd, 0x105ff), (0x10768, 0x1077f), (0x107bb, 0x107ff), (0x10857, 0x10857),
  (0x10877, 0x10878), (0x108b0, 0x108df), (0x1091f, 0x1091f), (0x1093f, 0x1097f),
  (0x10a38, 0x10a3f), (0x10a50, 0x10a5f), (0x10a7f, 0x10a7f), (0x10aa0, 0x10abf),
  (0x10ac8, 0x10ac8), (0x10ae5, 0x10aea), (0x10af0, 0x10aff), (0x10b39, 0x10b3f),
  (0x10b99, 0x10ba8), (0x10bb0, 0x10bff), (0x10c49, 0x10c7f), (0x10d3a, 0x10e5f),
  (0x10ead, 0x10eaf), (0x10eb2, 0x10eff), (0x10f46, 0x10f50), (0x10f55, 0x10f6f),
  (0x10f82, 0x10faf), (0x10fcc, 0x10fdf), (0x11046, 0x11051), (0x11070, 0x11070),
  (0x1107f, 0x1107f), (0x110b9, 0x110c1), (0x110cd, 0x110cf), (0x11133, 0x11135),
  (0x11140, 0x11143), (0x11173, 0x11175), (0x111c0, 0x111c0), (0x111c5, 0x111cd),
  (0x111db, 0x111db), (0x111dd, 0x111e0), (0x11235, 0x11236), (0x11238, 0x1123d),
  (0x11242, 0x1127f), (0x112a9, 0x112af), (0x112e9, 0x112ef), (0x1133b, 0x1133c),
  (0x1134d, 0x1134f), (0x11366, 0x113ff), (0x11442, 0x11442), (0x11446, 0x11446),
  (0x1144b, 0x1144f), (0x1145a, 0x1145e), (0x11462, 0x1147f), (0x114c2, 0x114c3),
  (0x114c6, 0x114c6), (0x114da, 0x1157f), (0x115bf, 0x115d7), (0x115de, 0x115ff),
  (0x1163f, 0x1163f), (0x11641, 0x11643), (0x11660, 0x1167f), (0x116b6, 0x116b7),
  (0x116b9, 0x116bf), (0x116ca, 0x116ff), (0x1172b, 0x1172f), (0x1173c, 0x1173f),
  (0x11747, 0x117ff), (0x11839, 0x1189f), (0x1193d, 0x1193e), (0x11943, 0x1194f),
  (0x1195a, 0x1199f), (0x119e0, 0x119e0), (0x119e2, 0x119e2), (0x119e5, 0x119ff),
  (0x11a33, 0x11a34), (0x11a3f, 0x11a4f), (0x11a98, 0x11a9c), (0x11a9e, 0x11aaf),
  (0x11b00, 0x11bff), (0x11c3f, 0x11c3f), (0x11c41, 0x11c4f), (0x11c70, 0x11c71),
  (0x11cb7, 0x11cff), (0x11d42, 0x11d42), (0x11d44, 0x11d45), (0x11d97, 0x11d97),
  (0x11daa, 0x11edf), (0x11ef7, 0x11eff), (0x11f41, 0x11f4f), (0x11f5a, 0x11faf),
  (0x11fd5, 0x11fff), (0x1239a, 0x123ff), (0x12470, 0x1247f), (0x12544, 0x12f8f),
  (0x12ff1, 0x12fff), (0x13430, 0x13440), (0x13447, 0x143ff), (0x14647, 0x167ff),
  (0x16a6e, 0x16a6f), (0x16af0, 0x16aff), (0x16b30, 0x16b3f), (0x16b44, 0x16b4f),
  (0x16b90, 0x16e3f), (0x16e97, 0x16eff), (0x16fa0, 0x16fdf), (0x16fe2, 0x16fe2),
  (0x16fe4, 0x16fef), (0x18cd6, 0x18cff), (0x18d09, 0x1afef), (0x1b133, 0x1b14f),
  (0x1b2fc, 0x1bbff), (0x1bc9c, 0x1bc9d), (0x1bc9f, 0x1d2bf), (0x1d300, 0x1d35f),
  (0x1d379, 0x1d3ff), (0x1d6c1, 0x1d6c1), (0x1d6db, 0x1d6db), (0x1d6fb, 0x1d6fb),
  (0x1d715, 0x1d715), (0x1d735, 0x1d735), (0x1d74f, 0x1d74f), (0x1d76f, 0x1d76f),
  (0x1d789, 0x1d789), (0x1d7a9, 0x1d7a9), (0x1d7c3, 0x1d7c3), (0x1d800, 0x1deff),
  (0x1df2b, 0x1dfff), (0x1e06e, 0x1e08e), (0x1e090, 0x1e0ff), (0x1e130, 0x1e136),
  (0x1e14f, 0x1e28f), (0x1e2ae, 0x1e2bf), (0x1e2ec, 0x1e2ef), (0x1e2ff, 0x1e4cf),
  (0x1e4ec, 0x1e4ef), (0x1e4fa, 0x1e7df), (0x1e8d0, 0x1e8ff), (0x1e944, 0x1e946),
  (0x1e948, 0x1e94a), (0x1e95e, 0x1ec70), (0x1ecac, 0x1ecac), (0x1ecb0, 0x1ecb0),
  (0x1ecb5, 0x1ed00), (0x1ed2e, 0x1ed2e), (0x1ed3e, 0x1edff), (0x1eebc, 0x1f0ff),
  (0x1f10d, 0x1f12f), (0x1f14a, 0x1f14f), (0x1f16a, 0x1f16f), (0x1f18a, 0x1fbef),
  (0x1fbfa, 0x1ffff), (0x2a6e0, 0x2a6ff), (0x2ebe1, 0x2f7ff), (0x2fa1e, 0x2ffff),
  (0x323b0, 0x10ffff)]

/-- The character is a letter or a number of any script. -/
def isLetterOrNumber (c : Char) : Bool :=
  c.isAlphanum || (decide (127 < c.toNat) &&
    !signs.any fun (first, last) => decide (first ≤ c.toNat) && decide (c.toNat ≤ last))

/-- Letters and digits of ASCII pass the test. -/
theorem isLetterOrNumber_of_isAlphanum {c : Char} (h : c.isAlphanum = true) :
    isLetterOrNumber c = true := by
  rw [isLetterOrNumber, h, Bool.true_or]

end Anthology.Text
