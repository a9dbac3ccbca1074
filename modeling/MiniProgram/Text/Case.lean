import MiniProgram.Text.Utf8

/-!
Letter case of code points: which are upper-case or lower-case letters, which are decimal digits,
and the simple lower-case form of a code point, by the Unicode character database (version 15).

ASCII is decided directly; the tables cover the rest. A row `(first, last, step)` stands for
`first`, `first + step`, … up to `last`.
-/

namespace MiniProgram

namespace Rune

/-- Upper-case letters (category Lu) beyond ASCII. -/
def upperTable : List (Nat × Nat × Nat) := [
  (192, 214, 1), (216, 222, 1), (256, 310, 2), (313, 327, 2), (330, 376, 2), (377, 381, 2),
  (385, 386, 1), (388, 388, 1), (390, 391, 1), (393, 395, 1), (398, 401, 1), (403, 404, 1),
  (406, 408, 1), (412, 413, 1), (415, 416, 1), (418, 422, 2), (423, 423, 1), (425, 425, 1),
  (428, 428, 1), (430, 431, 1), (433, 435, 1), (437, 437, 1), (439, 440, 1), (444, 444, 1),
  (452, 452, 1), (455, 455, 1), (458, 458, 1), (461, 475, 2), (478, 494, 2), (497, 497, 1),
  (500, 500, 1), (502, 504, 1), (506, 562, 2), (570, 571, 1), (573, 574, 1), (577, 577, 1),
  (579, 582, 1), (584, 590, 2), (880, 880, 1), (882, 882, 1), (886, 886, 1), (895, 895, 1),
  (902, 902, 1), (904, 906, 1), (908, 908, 1), (910, 911, 1), (913, 929, 1), (931, 939, 1),
  (975, 975, 1), (978, 980, 1), (984, 1006, 2), (1012, 1012, 1), (1015, 1015, 1), (1017, 1018, 1),
  (1021, 1071, 1), (1120, 1152, 2), (1162, 1216, 2), (1217, 1229, 2), (1232, 1326, 2),
  (1329, 1366, 1), (4256, 4293, 1), (4295, 4295, 1), (4301, 4301, 1), (5024, 5109, 1),
  (7312, 7354, 1), (7357, 7359, 1), (7680, 7828, 2), (7838, 7934, 2), (7944, 7951, 1),
  (7960, 7965, 1), (7976, 7983, 1), (7992, 7999, 1), (8008, 8013, 1), (8025, 8031, 2),
  (8040, 8047, 1), (8120, 8123, 1), (8136, 8139, 1), (8152, 8155, 1), (8168, 8172, 1),
  (8184, 8187, 1), (8450, 8450, 1), (8455, 8455, 1), (8459, 8461, 1), (8464, 8466, 1),
  (8469, 8469, 1), (8473, 8477, 1), (8484, 8490, 2), (8491, 8493, 1), (8496, 8499, 1),
  (8510, 8511, 1), (8517, 8517, 1), (8579, 8579, 1), (11264, 11311, 1), (11360, 11360, 1),
  (11362, 11364, 1), (11367, 11373, 2), (11374, 11376, 1), (11378, 11378, 1), (11381, 11381, 1),
  (11390, 11392, 1), (11394, 11490, 2), (11499, 11499, 1), (11501, 11501, 1), (11506, 11506, 1),
  (42560, 42604, 2), (42624, 42650, 2), (42786, 42798, 2), (42802, 42862, 2), (42873, 42877, 2),
  (42878, 42886, 2), (42891, 42891, 1), (42893, 42893, 1), (42896, 42896, 1), (42898, 42898, 1),
  (42902, 42922, 2), (42923, 42926, 1), (42928, 42932, 1), (42934, 42948, 2), (42949, 42951, 1),
  (42953, 42953, 1), (42960, 42960, 1), (42966, 42966, 1), (42968, 42968, 1), (42997, 42997, 1),
  (65313, 65338, 1), (66560, 66599, 1), (66736, 66771, 1), (66928, 66938, 1), (66940, 66954, 1),
  (66956, 66962, 1), (66964, 66965, 1), (68736, 68786, 1), (71840, 71871, 1), (93760, 93791, 1),
  (119808, 119833, 1), (119860, 119885, 1), (119912, 119937, 1), (119964, 119964, 1),
  (119966, 119967, 1), (119970, 119970, 1), (119973, 119974, 1), (119977, 119980, 1),
  (119982, 119989, 1), (120016, 120041, 1), (120068, 120069, 1), (120071, 120074, 1),
  (120077, 120084, 1), (120086, 120092, 1), (120120, 120121, 1), (120123, 120126, 1),
  (120128, 120132, 1), (120134, 120134, 1), (120138, 120144, 1), (120172, 120197, 1),
  (120224, 120249, 1), (120276, 120301, 1), (120328, 120353, 1), (120380, 120405, 1),
  (120432, 120457, 1), (120488, 120512, 1), (120546, 120570, 1), (120604, 120628, 1),
  (120662, 120686, 1), (120720, 120744, 1), (120778, 120778, 1), (125184, 125217, 1)]

/-- Lower-case letters (category Ll) beyond ASCII. -/
def lowerTable : List (Nat × Nat × Nat) := [
  (181, 181, 1), (223, 246, 1), (248, 255, 1), (257, 311, 2), (312, 328, 2), (329, 375, 2),
  (378, 382, 2), (383, 384, 1), (387, 387, 1), (389, 389, 1), (392, 392, 1), (396, 397, 1),
  (402, 402, 1), (405, 405, 1), (409, 411, 1), (414, 414, 1), (417, 421, 2), (424, 424, 1),
  (426, 427, 1), (429, 429, 1), (432, 432, 1), (436, 436, 1), (438, 438, 1), (441, 442, 1),
  (445, 447, 1), (454, 454, 1), (457, 457, 1), (460, 476, 2), (477, 495, 2), (496, 496, 1),
  (499, 499, 1), (501, 501, 1), (505, 563, 2), (564, 569, 1), (572, 572, 1), (575, 576, 1),
  (578, 578, 1), (583, 591, 2), (592, 659, 1), (661, 687, 1), (881, 881, 1), (883, 883, 1),
  (887, 887, 1), (891, 893, 1), (912, 912, 1), (940, 974, 1), (976, 977, 1), (981, 983, 1),
  (985, 1007, 2), (1008, 1011, 1), (1013, 1013, 1), (1016, 1016, 1), (1019, 1020, 1),
  (1072, 1119, 1), (1121, 1153, 2), (1163, 1215, 2), (1218, 1230, 2), (1231, 1327, 2),
  (1376, 1416, 1), (4304, 4346, 1), (4349, 4351, 1), (5112, 5117, 1), (7296, 7304, 1),
  (7424, 7467, 1), (7531, 7543, 1), (7545, 7578, 1), (7681, 7829, 2), (7830, 7837, 1),
  (7839, 7935, 2), (7936, 7943, 1), (7952, 7957, 1), (7968, 7975, 1), (7984, 7991, 1),
  (8000, 8005, 1), (8016, 8023, 1), (8032, 8039, 1), (8048, 8061, 1), (8064, 8071, 1),
  (8080, 8087, 1), (8096, 8103, 1), (8112, 8116, 1), (8118, 8119, 1), (8126, 8126, 1),
  (8130, 8132, 1), (8134, 8135, 1), (8144, 8147, 1), (8150, 8151, 1), (8160, 8167, 1),
  (8178, 8180, 1), (8182, 8183, 1), (8458, 8458, 1), (8462, 8463, 1), (8467, 8467, 1),
  (8495, 8495, 1), (8500, 8500, 1), (8505, 8505, 1), (8508, 8509, 1), (8518, 8521, 1),
  (8526, 8526, 1), (8580, 8580, 1), (11312, 11359, 1), (11361, 11361, 1), (11365, 11366, 1),
  (11368, 11372, 2), (11377, 11377, 1), (11379, 11380, 1), (11382, 11387, 1), (11393, 11491, 2),
  (11492, 11492, 1), (11500, 11500, 1), (11502, 11502, 1), (11507, 11507, 1), (11520, 11557, 1),
  (11559, 11559, 1), (11565, 11565, 1), (42561, 42605, 2), (42625, 42651, 2), (42787, 42799, 2),
  (42800, 42801, 1), (42803, 42865, 2), (42866, 42872, 1), (42874, 42874, 1), (42876, 42876, 1),
  (42879, 42887, 2), (42892, 42892, 1), (42894, 42894, 1), (42897, 42897, 1), (42899, 42901, 1),
  (42903, 42921, 2), (42927, 42927, 1), (42933, 42947, 2), (42952, 42952, 1), (42954, 42954, 1),
  (42961, 42969, 2), (42998, 42998, 1), (43002, 43002, 1), (43824, 43866, 1), (43872, 43880, 1),
  (43888, 43967, 1), (64256, 64262, 1), (64275, 64279, 1), (65345, 65370, 1), (66600, 66639, 1),
  (66776, 66811, 1), (66967, 66977, 1), (66979, 66993, 1), (66995, 67001, 1), (67003, 67004, 1),
  (68800, 68850, 1), (71872, 71903, 1), (93792, 93823, 1), (119834, 119859, 1), (119886, 119892, 1),
  (119894, 119911, 1), (119938, 119963, 1), (119990, 119993, 1), (119995, 119995, 1),
  (119997, 120003, 1), (120005, 120015, 1), (120042, 120067, 1), (120094, 120119, 1),
  (120146, 120171, 1), (120198, 120223, 1), (120250, 120275, 1), (120302, 120327, 1),
  (120354, 120379, 1), (120406, 120431, 1), (120458, 120485, 1), (120514, 120538, 1),
  (120540, 120545, 1), (120572, 120596, 1), (120598, 120603, 1), (120630, 120654, 1),
  (120656, 120661, 1), (120688, 120712, 1), (120714, 120719, 1), (120746, 120770, 1),
  (120772, 120777, 1), (120779, 120779, 1), (122624, 122633, 1), (122635, 122654, 1),
  (122661, 122666, 1), (125218, 125251, 1)]

/-- Decimal digits (category Nd) beyond ASCII, as first and last of each run. -/
def digitTable : List (Nat × Nat) := [
  (1632, 1641), (1776, 1785), (1984, 1993), (2406, 2415), (2534, 2543),
  (2662, 2671), (2790, 2799), (2918, 2927), (3046, 3055), (3174, 3183),
  (3302, 3311), (3430, 3439), (3558, 3567), (3664, 3673), (3792, 3801),
  (3872, 3881), (4160, 4169), (4240, 4249), (6112, 6121), (6160, 6169),
  (6470, 6479), (6608, 6617), (6784, 6793), (6800, 6809), (6992, 7001),
  (7088, 7097), (7232, 7241), (7248, 7257), (42528, 42537), (43216, 43225),
  (43264, 43273), (43472, 43481), (43504, 43513), (43600, 43609), (44016, 44025),
  (65296, 65305), (66720, 66729), (68912, 68921), (69734, 69743), (69872, 69881),
  (69942, 69951), (70096, 70105), (70384, 70393), (70736, 70745), (70864, 70873),
  (71248, 71257), (71360, 71369), (71472, 71481), (71904, 71913), (72016, 72025),
  (72784, 72793), (73040, 73049), (73120, 73129), (73552, 73561), (92768, 92777),
  (92864, 92873), (93008, 93017), (120782, 120831), (123200, 123209), (123632, 123641),
  (124144, 124153), (125264, 125273), (130032, 130041)]

/-- Distances to the simple lower-case form beyond ASCII, for those that have one. -/
def loweringTable : List (Nat × Nat × Nat × Int) := [
  (192, 214, 1, 32), (216, 222, 1, 32), (256, 302, 2, 1), (304, 304, 1, -199), (306, 310, 2, 1),
  (313, 327, 2, 1), (330, 374, 2, 1), (376, 376, 1, -121), (377, 381, 2, 1), (385, 385, 1, 210),
  (386, 386, 1, 1), (388, 388, 1, 1), (390, 390, 1, 206), (391, 391, 1, 1), (393, 394, 1, 205),
  (395, 395, 1, 1), (398, 398, 1, 79), (399, 399, 1, 202), (400, 400, 1, 203), (401, 401, 1, 1),
  (403, 403, 1, 205), (404, 404, 1, 207), (406, 406, 1, 211), (407, 407, 1, 209), (408, 408, 1, 1),
  (412, 412, 1, 211), (413, 413, 1, 213), (415, 415, 1, 214), (416, 420, 2, 1), (422, 422, 1, 218),
  (423, 423, 1, 1), (425, 425, 1, 218), (428, 428, 1, 1), (430, 430, 1, 218), (431, 431, 1, 1),
  (433, 434, 1, 217), (435, 435, 1, 1), (437, 437, 1, 1), (439, 439, 1, 219), (440, 440, 1, 1),
  (444, 444, 1, 1), (452, 452, 1, 2), (453, 453, 1, 1), (455, 455, 1, 2), (456, 456, 1, 1),
  (458, 458, 1, 2), (459, 475, 2, 1), (478, 494, 2, 1), (497, 497, 1, 2), (498, 498, 1, 1),
  (500, 500, 1, 1), (502, 502, 1, -97), (503, 503, 1, -56), (504, 542, 2, 1), (544, 544, 1, -130),
  (546, 562, 2, 1), (570, 570, 1, 10795), (571, 571, 1, 1), (573, 573, 1, -163),
  (574, 574, 1, 10792), (577, 577, 1, 1), (579, 579, 1, -195), (580, 580, 1, 69), (581, 581, 1, 71),
  (582, 590, 2, 1), (880, 880, 1, 1), (882, 882, 1, 1), (886, 886, 1, 1), (895, 895, 1, 116),
  (902, 902, 1, 38), (904, 906, 1, 37), (908, 908, 1, 64), (910, 911, 1, 63), (913, 929, 1, 32),
  (931, 939, 1, 32), (975, 975, 1, 8), (984, 1006, 2, 1), (1012, 1012, 1, -60), (1015, 1015, 1, 1),
  (1017, 1017, 1, -7), (1018, 1018, 1, 1), (1021, 1023, 1, -130), (1024, 1039, 1, 80),
  (1040, 1071, 1, 32), (1120, 1152, 2, 1), (1162, 1214, 2, 1), (1216, 1216, 1, 15),
  (1217, 1229, 2, 1), (1232, 1326, 2, 1), (1329, 1366, 1, 48), (4256, 4293, 1, 7264),
  (4295, 4295, 1, 7264), (4301, 4301, 1, 7264), (5024, 5103, 1, 38864), (5104, 5109, 1, 8),
  (7312, 7354, 1, -3008), (7357, 7359, 1, -3008), (7680, 7828, 2, 1), (7838, 7838, 1, -7615),
  (7840, 7934, 2, 1), (7944, 7951, 1, -8), (7960, 7965, 1, -8), (7976, 7983, 1, -8),
  (7992, 7999, 1, -8), (8008, 8013, 1, -8), (8025, 8031, 2, -8), (8040, 8047, 1, -8),
  (8072, 8079, 1, -8), (8088, 8095, 1, -8), (8104, 8111, 1, -8), (8120, 8121, 1, -8),
  (8122, 8123, 1, -74), (8124, 8124, 1, -9), (8136, 8139, 1, -86), (8140, 8140, 1, -9),
  (8152, 8153, 1, -8), (8154, 8155, 1, -100), (8168, 8169, 1, -8), (8170, 8171, 1, -112),
  (8172, 8172, 1, -7), (8184, 8185, 1, -128), (8186, 8187, 1, -126), (8188, 8188, 1, -9),
  (8486, 8486, 1, -7517), (8490, 8490, 1, -8383), (8491, 8491, 1, -8262), (8498, 8498, 1, 28),
  (8544, 8559, 1, 16), (8579, 8579, 1, 1), (9398, 9423, 1, 26), (11264, 11311, 1, 48),
  (11360, 11360, 1, 1), (11362, 11362, 1, -10743), (11363, 11363, 1, -3814),
  (11364, 11364, 1, -10727), (11367, 11371, 2, 1), (11373, 11373, 1, -10780),
  (11374, 11374, 1, -10749), (11375, 11375, 1, -10783), (11376, 11376, 1, -10782),
  (11378, 11378, 1, 1), (11381, 11381, 1, 1), (11390, 11391, 1, -10815), (11392, 11490, 2, 1),
  (11499, 11499, 1, 1), (11501, 11501, 1, 1), (11506, 11506, 1, 1), (42560, 42604, 2, 1),
  (42624, 42650, 2, 1), (42786, 42798, 2, 1), (42802, 42862, 2, 1), (42873, 42873, 1, 1),
  (42875, 42875, 1, 1), (42877, 42877, 1, -35332), (42878, 42886, 2, 1), (42891, 42891, 1, 1),
  (42893, 42893, 1, -42280), (42896, 42896, 1, 1), (42898, 42898, 1, 1), (42902, 42920, 2, 1),
  (42922, 42922, 1, -42308), (42923, 42923, 1, -42319), (42924, 42924, 1, -42315),
  (42925, 42925, 1, -42305), (42926, 42926, 1, -42308), (42928, 42928, 1, -42258),
  (42929, 42929, 1, -42282), (42930, 42930, 1, -42261), (42931, 42931, 1, 928),
  (42932, 42946, 2, 1), (42948, 42948, 1, -48), (42949, 42949, 1, -42307),
  (42950, 42950, 1, -35384), (42951, 42951, 1, 1), (42953, 42953, 1, 1), (42960, 42960, 1, 1),
  (42966, 42966, 1, 1), (42968, 42968, 1, 1), (42997, 42997, 1, 1), (65313, 65338, 1, 32),
  (66560, 66599, 1, 40), (66736, 66771, 1, 40), (66928, 66938, 1, 39), (66940, 66954, 1, 39),
  (66956, 66962, 1, 39), (66964, 66965, 1, 39), (68736, 68786, 1, 64), (71840, 71871, 1, 32),
  (93760, 93791, 1, 32), (125184, 125217, 1, 34)]

/-- Whether `c` is listed by a row of a stepped table. -/
def isListed (table : List (Nat × Nat × Nat)) (c : Nat) : Bool :=
  table.any fun (first, last, step) => first ≤ c && c ≤ last && (c - first) % step == 0

/-- An upper-case letter. -/
def isUpper (c : Nat) : Bool := if c < 128 then 65 ≤ c && c ≤ 90 else isListed upperTable c

/-- A lower-case letter. -/
def isLower (c : Nat) : Bool := if c < 128 then 97 ≤ c && c ≤ 122 else isListed lowerTable c

/-- A decimal digit. -/
def isDigit (c : Nat) : Bool :=
  if c < 128 then 48 ≤ c && c ≤ 57 else digitTable.any fun (first, last) => first ≤ c && c ≤ last

/-- The simple lower-case form of a code point, itself if it has none. -/
def toLower (c : Nat) : Nat :=
  if c < 128 then (if 65 ≤ c && c ≤ 90 then c + 32 else c)
  else
    match loweringTable.find? fun (first, last, step, _) =>
        first ≤ c && c ≤ last && (c - first) % step == 0 with
    | some (_, _, _, shift) => (c + shift : Int).toNat
    | none => c

end Rune

namespace Text

/-- The text in lower case. An ill-formed byte becomes U+FFFD. -/
def toLower (t : Text) : Text := ofRunes ((runes t).map Rune.toLower)

end Text

end MiniProgram
