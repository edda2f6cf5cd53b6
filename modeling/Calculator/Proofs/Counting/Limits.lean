import Calculator.Proofs.Binary64.Approximation
import Calculator.Proofs.Counting.Products

/-!
# Counts that are nearly too large

The last dividend of a binomial coefficient, the number of steps times the coefficient, is never so
near to the limit of the finite numbers that a change of one part in `2 ^ 40` could move it to the
other side (`clearlyBelow_or_clearlyAbove`). For every number of steps up to 510 a table has the last
number of things for which the dividend is below the limit. Both this dividend and the next one are
clear of the limit, and dividends grow with the number of things. With 511 steps all dividends are
above the limit (`clearlyAbove_of_le`).
-/

namespace Calculator.Counting

open Binary64 (overflowLimit)

/-- Below the limit, and still so after a change of one part in `2 ^ 40`. -/
def ClearlyBelow (d : Nat) : Prop := d * (2 ^ 40 + 1) < overflowLimit * 2 ^ 40

/-- Not below the limit, and still not so after a change of one part in `2 ^ 40`. -/
def ClearlyAbove (d : Nat) : Prop := overflowLimit * 2 ^ 40 ≤ d * (2 ^ 40 - 1)

/-- The last number of things for which the last dividend of `m` steps is below the limit, for `m`
from 37 on. Below 37 it is so for all numbers of 32 bits. -/
def lastBelow : List Nat := [
  2849289045, 1766835518, 1123558793, 731320129, 486389760, 330028226, 228136746, 160457700,
  114693924, 83228573, 61253920, 45681186, 34492711, 26349769, 20350948, 15880823, 12513682,
  9951381, 7982658, 6456144, 5262237, 4320783, 3572602, 2973605, 2490662, 2098675, 1778480,
  1515333, 1297814, 1117014, 965937, 839057, 731982, 641202, 563894, 497778, 441003, 392059,
  349705, 312923, 280867, 252838, 228250, 206615, 187520, 170619, 155619, 142269, 130359,
  119705, 110153, 101568, 93836, 86857, 80543, 74820, 69623, 64894, 60582, 56645, 53043, 49742,
  46712, 43927, 41362, 38998, 36814, 34794, 32924, 31190, 29580, 28083, 26690, 25392, 24180,
  23049, 21991, 21001, 20073, 19203, 18386, 17618, 16895, 16215, 15574, 14970, 14399, 13860,
  13350, 12867, 12410, 11977, 11566, 11176, 10805, 10453, 10118, 9799, 9496, 9206, 8931, 8667,
  8416, 8176, 7946, 7727, 7517, 7316, 7123, 6938, 6761, 6591, 6428, 6272, 6122, 5977, 5838,
  5704, 5576, 5452, 5333, 5218, 5107, 5000, 4897, 4797, 4701, 4608, 4519, 4432, 4349, 4268,
  4189, 4113, 4040, 3969, 3900, 3833, 3769, 3706, 3645, 3586, 3529, 3474, 3420, 3367, 3317,
  3267, 3219, 3172, 3127, 3083, 3040, 2998, 2958, 2918, 2880, 2842, 2805, 2770, 2735, 2701,
  2668, 2636, 2605, 2574, 2545, 2515, 2487, 2459, 2432, 2406, 2380, 2355, 2330, 2306, 2283,
  2260, 2237, 2215, 2194, 2173, 2152, 2132, 2112, 2093, 2074, 2056, 2038, 2020, 2003, 1986,
  1969, 1953, 1937, 1921, 1906, 1891, 1876, 1862, 1848, 1834, 1820, 1807, 1794, 1781, 1769,
  1756, 1744, 1732, 1721, 1709, 1698, 1687, 1676, 1665, 1655, 1645, 1635, 1625, 1615, 1606,
  1596, 1587, 1578, 1569, 1560, 1552, 1543, 1535, 1527, 1519, 1511, 1503, 1495, 1488, 1481,
  1473, 1466, 1459, 1452, 1445, 1439, 1432, 1426, 1419, 1413, 1407, 1401, 1395, 1389, 1383,
  1378, 1372, 1366, 1361, 1356, 1350, 1345, 1340, 1335, 1330, 1325, 1320, 1316, 1311, 1307,
  1302, 1298, 1293, 1289, 1285, 1280, 1276, 1272, 1268, 1264, 1260, 1257, 1253, 1249, 1245,
  1242, 1238, 1235, 1231, 1228, 1224, 1221, 1218, 1215, 1211, 1208, 1205, 1202, 1199, 1196,
  1193, 1190, 1188, 1185, 1182, 1179, 1177, 1174, 1172, 1169, 1166, 1164, 1161, 1159, 1157,
  1154, 1152, 1150, 1147, 1145, 1143, 1141, 1139, 1137, 1135, 1133, 1131, 1129, 1127, 1125,
  1123, 1121, 1119, 1117, 1116, 1114, 1112, 1110, 1109, 1107, 1105, 1104, 1102, 1100, 1099,
  1097, 1096, 1094, 1093, 1092, 1090, 1089, 1087, 1086, 1085, 1083, 1082, 1081, 1079, 1078,
  1077, 1076, 1075, 1073, 1072, 1071, 1070, 1069, 1068, 1067, 1066, 1065, 1064, 1063, 1062,
  1061, 1060, 1059, 1058, 1057, 1056, 1055, 1054, 1053, 1053, 1052, 1051, 1050, 1049, 1049,
  1048, 1047, 1046, 1046, 1045, 1044, 1044, 1043, 1042, 1042, 1041, 1040, 1040, 1039, 1039,
  1038, 1037, 1037, 1036, 1036, 1035, 1035, 1034, 1034, 1033, 1033, 1032, 1032, 1031, 1031,
  1031, 1030, 1030, 1029, 1029, 1029, 1028, 1028, 1028, 1027, 1027, 1027, 1026, 1026, 1026,
  1025, 1025, 1025, 1025, 1024, 1024, 1024, 1024, 1023, 1023, 1023, 1023, 1023, 1022, 1022,
  1022, 1022, 1022, 1022, 1021, 1021, 1021, 1021, 1021, 1021, 1021, 1021, 1020, 1020, 1020,
  1020, 1020, 1020, 1020, 1020, 1020, 1020, 1020, 1020, 1020, 1020, 1020
  ]

/-- The product of `k` numbers from `n` down. It is written with the recursor itself, which takes the
least time to evaluate. -/
noncomputable def fallingProduct (n k : Nat) : Nat :=
  Nat.rec 1 (fun i product => (n - i) * product) k

/-- For `k + 1` steps, `n` is the last number of things for which the last dividend is below the
limit, and all dividends are clear of it. Both sides are multiplied by `k!`, which is `f`. -/
noncomputable def separates (k f n : Nat) : Bool :=
  decide ((n - k) * fallingProduct n k * (2 ^ 40 + 1) < overflowLimit * 2 ^ 40 * f) &&
    (n + 1 == 2 ^ 32 ||
      decide (overflowLimit * 2 ^ 40 * f ≤ (n + 1) * fallingProduct n k * (2 ^ 40 - 1)))

/-- The rows of a table from `k` on are the last numbers of things. -/
noncomputable def separatesAll : Nat → Nat → List Nat → Bool
  | _, _, [] => true
  | k, f, n :: rows => separates k f n && separatesAll (k + 1) ((k + 1) * f) rows

/-- The table is right. -/
theorem separatesAll_lastBelow :
    separatesAll 0 1 (List.replicate 36 (2 ^ 32 - 1) ++ lastBelow) = true := by
  decide +kernel

/-! ## What the table says -/

variable {d d' k m n : Nat}

/-- Smaller numbers are below the limit as well. -/
theorem ClearlyBelow.mono (h : ClearlyBelow d') (hle : d ≤ d') : ClearlyBelow d :=
  (Nat.mul_le_mul_right _ hle).trans_lt h

/-- Larger numbers are above the limit as well. -/
theorem ClearlyAbove.mono (h : ClearlyAbove d) (hle : d ≤ d') : ClearlyAbove d' :=
  h.trans (Nat.mul_le_mul_right _ hle)

/-- The product of numbers from `n` down is a multiple of a binomial coefficient. -/
theorem fallingProduct_eq (n k : Nat) : fallingProduct n k = k.factorial * n.choose k := by
  rw [← Nat.descFactorial_eq_factorial_mul_choose]
  induction k with
  | zero => rfl
  | succ k ih => exact congrArg ((n - k) * ·) ih

/-- A dividend is below the limit if it is so as a product of numbers from `n` down. -/
theorem clearlyBelow_of_fallingProduct
    (h : (n - k) * fallingProduct n k * (2 ^ 40 + 1) < overflowLimit * 2 ^ 40 * k.factorial) :
    ClearlyBelow ((k + 1) * n.choose (k + 1)) := by
  rw [fallingProduct_eq] at h
  refine Nat.lt_of_mul_lt_mul_right (a := k.factorial) ?_
  rw [Nat.mul_comm (k + 1), Nat.choose_succ_right_eq]
  calc n.choose k * (n - k) * (2 ^ 40 + 1) * k.factorial
      = (n - k) * (k.factorial * n.choose k) * (2 ^ 40 + 1) := by ring
    _ < overflowLimit * 2 ^ 40 * k.factorial := h

/-- It is above the limit if the product with the number after `n` is. -/
theorem clearlyAbove_of_fallingProduct
    (h : overflowLimit * 2 ^ 40 * k.factorial ≤ (n + 1) * fallingProduct n k * (2 ^ 40 - 1)) :
    ClearlyAbove ((k + 1) * (n + 1).choose (k + 1)) := by
  rw [fallingProduct_eq] at h
  refine Nat.le_of_mul_le_mul_right ?_ k.factorial_pos
  rw [Nat.mul_comm (k + 1), ← Nat.add_one_mul_choose_eq]
  calc overflowLimit * 2 ^ 40 * k.factorial
      ≤ (n + 1) * (k.factorial * n.choose k) * (2 ^ 40 - 1) := h
    _ = (n + 1) * n.choose k * (2 ^ 40 - 1) * k.factorial := by ring

/-- What a row says about dividends. -/
theorem clear_of_separates (h : separates k k.factorial n = true) :
    ClearlyBelow ((k + 1) * n.choose (k + 1)) ∧
      (n + 1 = 2 ^ 32 ∨ ClearlyAbove ((k + 1) * (n + 1).choose (k + 1))) := by
  rw [separates, Bool.and_eq_true, Bool.or_eq_true, decide_eq_true_iff, beq_iff_eq,
    decide_eq_true_iff] at h
  exact ⟨clearlyBelow_of_fallingProduct h.1, h.2.imp_right clearlyAbove_of_fallingProduct⟩

/-- What a table says about its rows. -/
theorem exists_separates {rows : List Nat} (h : separatesAll k k.factorial rows = true)
    (hm : k ≤ m) (hm' : m < k + rows.length) : ∃ n, separates m m.factorial n = true := by
  induction rows generalizing k with
  | nil => exact absurd hm' (Nat.not_lt.2 hm)
  | cons n rows ih =>
    rw [separatesAll, Bool.and_eq_true] at h
    rcases Nat.eq_or_lt_of_le hm with rfl | hlt
    · exact ⟨n, h.1⟩
    · rw [List.length_cons] at hm'
      exact ih h.2 hlt (by omega)

/-- With up to 510 steps the last dividend is clear of the limit. -/
theorem clearlyBelow_or_clearlyAbove (hm : 0 < m) (hm' : m ≤ 510) (hn : n < 2 ^ 32) :
    ClearlyBelow (m * n.choose m) ∨ ClearlyAbove (m * n.choose m) := by
  obtain ⟨k, rfl⟩ : ∃ k, m = k + 1 := ⟨m - 1, by omega⟩
  have hlength : (List.replicate 36 (2 ^ 32 - 1) ++ lastBelow).length = 510 := by
    decide +kernel
  obtain ⟨last, hlast⟩ := exists_separates separatesAll_lastBelow (Nat.zero_le k)
    (by rw [hlength]; omega)
  obtain ⟨hbelow, habove⟩ := clear_of_separates hlast
  -- The dividends grow with the number of things.
  rcases Nat.lt_or_ge last n with hlt | hle
  · refine .inr ((habove.resolve_left (by omega)).mono ?_)
    exact Nat.mul_le_mul_left _ (Nat.choose_le_choose _ hlt)
  · exact .inl (hbelow.mono (Nat.mul_le_mul_left _ (Nat.choose_le_choose _ hle)))

/-- With 511 steps the last dividend is above the limit, because there are at least twice as many
things. -/
theorem clearlyAbove_of_le (hn : 1022 ≤ n) : ClearlyAbove (511 * n.choose 511) := by
  have hleast : ClearlyAbove ((510 + 1) * (1021 + 1).choose (510 + 1)) :=
    clearlyAbove_of_fallingProduct (by decide +kernel)
  exact hleast.mono (Nat.mul_le_mul_left _ (Nat.choose_le_choose _ hn))

end Calculator.Counting
