import AnnexCatalog.Text.Ranges

/-! # Characters between tokens

The assigned characters that are neither letters, numbers nor private use: marks, punctuation,
symbols, blanks and controls. A code point without an assignment counts as part of a token.
-/

namespace AnnexCatalog.Text

/-- The characters that end a token. -/
def separatorRanges : Ranges :=
  [(0, 47), (58, 64), (91, 96), (123, 169), (171, 177), (180, 180), (182, 184), (187, 187),
   (191, 191), (215, 215), (247, 247), (706, 709), (722, 735), (741, 747), (749, 749), (751, 767),
   (773, 773), (781, 782), (784, 784), (786, 794), (796, 802), (809, 812), (815, 815), (818, 879),
   (885, 885), (894, 894), (900, 901), (903, 903), (1014, 1014), (1154, 1161), (1370, 1375),
   (1417, 1418), (1423, 1423), (1425, 1479), (1523, 1524), (1536, 1540), (1542, 1563),
   (1566, 1567), (1611, 1631), (1642, 1645), (1648, 1648), (1748, 1748), (1750, 1764),
   (1767, 1773), (1789, 1790), (1792, 1805), (1807, 1807), (1809, 1809), (1840, 1866),
   (1958, 1968), (2027, 2035), (2038, 2041), (2070, 2073), (2075, 2083), (2085, 2087),
   (2089, 2093), (2096, 2110), (2137, 2139), (2142, 2142), (2276, 2302), (2304, 2307),
   (2362, 2364), (2366, 2383), (2385, 2391), (2402, 2405), (2416, 2416), (2433, 2435),
   (2492, 2492), (2494, 2500), (2503, 2504), (2507, 2509), (2519, 2519), (2530, 2531),
   (2546, 2547), (2554, 2555), (2561, 2563), (2620, 2620), (2622, 2626), (2631, 2632),
   (2635, 2637), (2641, 2641), (2672, 2673), (2677, 2677), (2689, 2691), (2748, 2748),
   (2750, 2757), (2759, 2761), (2763, 2765), (2786, 2787), (2800, 2801), (2817, 2819),
   (2876, 2876), (2878, 2884), (2887, 2888), (2891, 2893), (2902, 2903), (2914, 2915),
   (2928, 2928), (2946, 2946), (3006, 3010), (3014, 3016), (3018, 3021), (3031, 3031),
   (3059, 3066), (3073, 3075), (3134, 3140), (3142, 3144), (3146, 3149), (3157, 3158),
   (3170, 3171), (3199, 3199), (3202, 3203), (3260, 3260), (3262, 3268), (3270, 3272),
   (3274, 3277), (3285, 3286), (3298, 3299), (3330, 3331), (3390, 3396), (3398, 3400),
   (3402, 3405), (3415, 3415), (3426, 3427), (3449, 3449), (3458, 3459), (3530, 3530),
   (3535, 3540), (3542, 3542), (3544, 3551), (3570, 3572), (3633, 3633), (3636, 3642),
   (3647, 3647), (3655, 3663), (3674, 3675), (3761, 3761), (3764, 3769), (3771, 3772),
   (3784, 3789), (3841, 3871), (3892, 3903), (3953, 3975), (3981, 3991), (3993, 4028),
   (4030, 4044), (4046, 4058), (4139, 4158), (4170, 4175), (4182, 4185), (4190, 4192),
   (4194, 4196), (4199, 4205), (4209, 4212), (4226, 4237), (4239, 4239), (4250, 4255),
   (4347, 4347), (4957, 4968), (5008, 5017), (5120, 5120), (5741, 5742), (5760, 5760),
   (5787, 5788), (5867, 5869), (5906, 5908), (5938, 5942), (5970, 5971), (6002, 6003),
   (6068, 6102), (6104, 6107), (6109, 6109), (6144, 6158), (6313, 6313), (6432, 6443),
   (6448, 6459), (6464, 6464), (6468, 6469), (6576, 6592), (6600, 6601), (6622, 6655),
   (6679, 6683), (6686, 6687), (6741, 6750), (6752, 6780), (6783, 6783), (6816, 6822),
   (6824, 6829), (6912, 6916), (6964, 6980), (7002, 7036), (7040, 7042), (7073, 7085),
   (7142, 7155), (7164, 7167), (7204, 7223), (7227, 7231), (7294, 7295), (7360, 7367),
   (7376, 7400), (7405, 7405), (7410, 7412), (7616, 7654), (7676, 7679), (8125, 8125),
   (8127, 8129), (8141, 8143), (8157, 8159), (8173, 8175), (8189, 8190), (8192, 8292),
   (8298, 8303), (8314, 8318), (8330, 8334), (8352, 8377), (8400, 8432), (8448, 8449),
   (8451, 8454), (8456, 8457), (8468, 8468), (8470, 8472), (8478, 8483), (8485, 8485),
   (8487, 8487), (8489, 8489), (8494, 8494), (8506, 8507), (8512, 8516), (8522, 8525),
   (8527, 8527), (8592, 9203), (9216, 9254), (9280, 9290), (9372, 9449), (9472, 9983),
   (9985, 10101), (10132, 11084), (11088, 11097), (11493, 11498), (11503, 11505), (11513, 11516),
   (11518, 11519), (11632, 11632), (11647, 11647), (11744, 11822), (11824, 11835), (11904, 11929),
   (11931, 12019), (12032, 12245), (12272, 12283), (12288, 12292), (12296, 12320), (12330, 12336),
   (12342, 12343), (12349, 12351), (12441, 12444), (12448, 12448), (12539, 12539), (12688, 12689),
   (12694, 12703), (12736, 12771), (12800, 12830), (12842, 12871), (12880, 12880), (12896, 12927),
   (12938, 12976), (12992, 13054), (13056, 13311), (19904, 19967), (42128, 42182), (42238, 42239),
   (42509, 42511), (42607, 42622), (42655, 42655), (42736, 42743), (42752, 42774), (42784, 42785),
   (42889, 42890), (43010, 43010), (43014, 43014), (43019, 43019), (43043, 43051), (43062, 43065),
   (43124, 43127), (43136, 43137), (43188, 43204), (43214, 43215), (43232, 43249), (43256, 43258),
   (43302, 43311), (43335, 43347), (43359, 43359), (43392, 43395), (43443, 43469), (43486, 43487),
   (43561, 43574), (43587, 43587), (43596, 43597), (43612, 43615), (43639, 43641), (43643, 43643),
   (43696, 43696), (43698, 43700), (43703, 43704), (43710, 43711), (43713, 43713), (43742, 43743),
   (43755, 43761), (43765, 43766), (44003, 44013), (64286, 64286), (64297, 64297), (64434, 64449),
   (64830, 64831), (65020, 65021), (65024, 65049), (65056, 65062), (65072, 65106), (65108, 65126),
   (65128, 65131), (65279, 65279), (65281, 65295), (65306, 65312), (65339, 65344), (65371, 65381),
   (65504, 65510), (65512, 65518), (65529, 65535), (65792, 65794), (65847, 65855), (65913, 65929),
   (65936, 65947), (66000, 66045), (66463, 66463), (66512, 66512), (67671, 67671), (67871, 67871),
   (67903, 67903), (68097, 68099), (68101, 68102), (68108, 68111), (68152, 68154), (68159, 68159),
   (68176, 68184), (68223, 68223), (68409, 68415), (69632, 69634), (69688, 69709), (69760, 69762),
   (69808, 69825), (69888, 69890), (69927, 69940), (69952, 69955), (70016, 70018), (70067, 70080),
   (70085, 70088), (71339, 71351), (74864, 74867), (94033, 94078), (94095, 94098),
   (118784, 119029), (119040, 119078), (119081, 119261), (119296, 119365), (119552, 119638),
   (120513, 120513), (120539, 120539), (120571, 120571), (120597, 120597), (120629, 120629),
   (120655, 120655), (120687, 120687), (120713, 120713), (120745, 120745), (120771, 120771),
   (126704, 126705), (126976, 127019), (127024, 127123), (127136, 127150), (127153, 127166),
   (127169, 127183), (127185, 127199), (127248, 127278), (127280, 127339), (127344, 127386),
   (127462, 127490), (127504, 127546), (127552, 127560), (127568, 127569), (127744, 127776),
   (127792, 127797), (127799, 127868), (127872, 127891), (127904, 127940), (127942, 127946),
   (127968, 127984), (128000, 128062), (128064, 128064), (128066, 128247), (128249, 128252),
   (128256, 128317), (128320, 128323), (128336, 128359), (128507, 128576), (128581, 128591),
   (128640, 128709), (128768, 128883), (917505, 917505), (917536, 917631), (917760, 917999)]

/-- The combining marks that are dropped inside a token and do not end it. -/
def diacriticRanges : Ranges :=
  [(768, 772), (774, 780), (783, 783), (785, 785), (795, 795), (803, 808), (813, 814), (816, 817)]

end AnnexCatalog.Text
