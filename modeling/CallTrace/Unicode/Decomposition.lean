import CallTrace.Unicode.Block

/-!
# Compatibility decompositions

The full compatibility decomposition of every code point that has one, the
Hangul syllables left out: theirs is computed.
-/

namespace CallTrace.Unicode

/-- What each code point decomposes into. -/
def decompositions : List Block :=
  [⟨0xa0, 0xa0, ["20"]⟩, ⟨0xa8, 0xa8, ["20.308"]⟩, ⟨0xaa, 0xaa, ["61"]⟩, ⟨0xaf, 0xaf, ["20.304"]⟩,
   ⟨0xb2, 0xb5, ["32 33 20.301 3bc"]⟩, ⟨0xb8, 0xba, ["20.327 31 6f"]⟩,
   ⟨0xbc, 0xbe, ["31.2044.34 31.2044.32 33.2044.34"]⟩,
   ⟨0xc0, 0xc5, ["41.300 41.301 41.302 41.303 41.308 41.30a"]⟩,
   ⟨0xc7, 0xcf, ["43.327 45.300 45.301 45.302 45.308 49.300 49.301 49.302 49.308"]⟩,
   ⟨0xd1, 0xd6, ["4e.303 4f.300 4f.301 4f.302 4f.303 4f.308"]⟩,
   ⟨0xd9, 0xdd, ["55.300 55.301 55.302 55.308 59.301"]⟩,
   ⟨0xe0, 0xe5, ["61.300 61.301 61.302 61.303 61.308 61.30a"]⟩,
   ⟨0xe7, 0xef, ["63.327 65.300 65.301 65.302 65.308 69.300 69.301 69.302 69.308"]⟩,
   ⟨0xf1, 0xf6, ["6e.303 6f.300 6f.301 6f.302 6f.303 6f.308"]⟩,
   ⟨0xf9, 0xfd, ["75.300 75.301 75.302 75.308 79.301"]⟩,
   ⟨0xff, 0x10f, ["79.308 41.304 61.304 41.306 61.306 41.328 61.328 43.301 63.301 43.302",
      "63.302 43.307 63.307 43.30c 63.30c 44.30c 64.30c"]⟩,
   ⟨0x112, 0x125, ["45.304 65.304 45.306 65.306 45.307 65.307 45.328 65.328 45.30c 65.30c",
      "47.302 67.302 47.306 67.306 47.307 67.307 47.327 67.327 48.302 68.302"]⟩,
   ⟨0x128, 0x130, ["49.303 69.303 49.304 69.304 49.306 69.306 49.328 69.328 49.307"]⟩,
   ⟨0x132, 0x137, ["49.4a 69.6a 4a.302 6a.302 4b.327 6b.327"]⟩,
   ⟨0x139, 0x140, ["4c.301 6c.301 4c.327 6c.327 4c.30c 6c.30c 4c.b7 6c.b7"]⟩,
   ⟨0x143, 0x149, ["4e.301 6e.301 4e.327 6e.327 4e.30c 6e.30c 2bc.6e"]⟩,
   ⟨0x14c, 0x151, ["4f.304 6f.304 4f.306 6f.306 4f.30b 6f.30b"]⟩,
   ⟨0x154, 0x165, ["52.301 72.301 52.327 72.327 52.30c 72.30c 53.301 73.301 53.302 73.302",
      "53.327 73.327 53.30c 73.30c 54.327 74.327 54.30c 74.30c"]⟩,
   ⟨0x168, 0x17f, ["55.303 75.303 55.304 75.304 55.306 75.306 55.30a 75.30a 55.30b 75.30b",
      "55.328 75.328 57.302 77.302 59.302 79.302 59.308 5a.301 7a.301 5a.307 7a.307 5a.30c",
      "7a.30c 73"]⟩,
   ⟨0x1a0, 0x1a1, ["4f.31b 6f.31b"]⟩, ⟨0x1af, 0x1b0, ["55.31b 75.31b"]⟩,
   ⟨0x1c4, 0x1dc, ["44.5a.30c 44.7a.30c 64.7a.30c 4c.4a 4c.6a 6c.6a 4e.4a 4e.6a 6e.6a 41.30c",
      "61.30c 49.30c 69.30c 4f.30c 6f.30c 55.30c 75.30c 55.308.304 75.308.304 55.308.301",
      "75.308.301 55.308.30c 75.308.30c 55.308.300 75.308.300"]⟩,
   ⟨0x1de, 0x1e3, ["41.308.304 61.308.304 41.307.304 61.307.304 c6.304 e6.304"]⟩,
   ⟨0x1e6, 0x1f5, ["47.30c 67.30c 4b.30c 6b.30c 4f.328 6f.328 4f.328.304 6f.328.304 1b7.30c",
      "292.30c 6a.30c 44.5a 44.7a 64.7a 47.301 67.301"]⟩,
   ⟨0x1f8, 0x21b, ["4e.300 6e.300 41.30a.301 61.30a.301 c6.301 e6.301 d8.301 f8.301 41.30f",
      "61.30f 41.311 61.311 45.30f 65.30f 45.311 65.311 49.30f 69.30f 49.311 69.311 4f.30f",
      "6f.30f 4f.311 6f.311 52.30f 72.30f 52.311 72.311 55.30f 75.30f 55.311 75.311 53.326",
      "73.326 54.326 74.326"]⟩,
   ⟨0x21e, 0x21f, ["48.30c 68.30c"]⟩,
   ⟨0x226, 0x233, ["41.307 61.307 45.327 65.327 4f.308.304 6f.308.304 4f.303.304 6f.303.304",
      "4f.307 6f.307 4f.307.304 6f.307.304 59.304 79.304"]⟩,
   ⟨0x2b0, 0x2b8, ["68 266 6a 72 279 27b 281 77 79"]⟩,
   ⟨0x2d8, 0x2dd, ["20.306 20.307 20.30a 20.328 20.303 20.30b"]⟩,
   ⟨0x2e0, 0x2e4, ["263 6c 73 78 295"]⟩, ⟨0x340, 0x341, ["300 301"]⟩,
   ⟨0x343, 0x344, ["313 308.301"]⟩, ⟨0x374, 0x374, ["2b9"]⟩, ⟨0x37a, 0x37a, ["20.345"]⟩,
   ⟨0x37e, 0x37e, ["3b"]⟩,
   ⟨0x384, 0x38a, ["20.301 20.308.301 391.301 b7 395.301 397.301 399.301"]⟩,
   ⟨0x38c, 0x38c, ["39f.301"]⟩, ⟨0x38e, 0x390, ["3a5.301 3a9.301 3b9.308.301"]⟩,
   ⟨0x3aa, 0x3b0, ["399.308 3a5.308 3b1.301 3b5.301 3b7.301 3b9.301 3c5.308.301"]⟩,
   ⟨0x3ca, 0x3ce, ["3b9.308 3c5.308 3bf.301 3c5.301 3c9.301"]⟩,
   ⟨0x3d0, 0x3d6, ["3b2 3b8 3a5 3a5.301 3a5.308 3c6 3c0"]⟩, ⟨0x3f0, 0x3f2, ["3ba 3c1 3c2"]⟩,
   ⟨0x3f4, 0x3f5, ["398 3b5"]⟩, ⟨0x3f9, 0x3f9, ["3a3"]⟩, ⟨0x400, 0x401, ["415.300 415.308"]⟩,
   ⟨0x403, 0x403, ["413.301"]⟩, ⟨0x407, 0x407, ["406.308"]⟩,
   ⟨0x40c, 0x40e, ["41a.301 418.300 423.306"]⟩, ⟨0x419, 0x419, ["418.306"]⟩,
   ⟨0x439, 0x439, ["438.306"]⟩, ⟨0x450, 0x451, ["435.300 435.308"]⟩, ⟨0x453, 0x453, ["433.301"]⟩,
   ⟨0x457, 0x457, ["456.308"]⟩, ⟨0x45c, 0x45e, ["43a.301 438.300 443.306"]⟩,
   ⟨0x476, 0x477, ["474.30f 475.30f"]⟩, ⟨0x4c1, 0x4c2, ["416.306 436.306"]⟩,
   ⟨0x4d0, 0x4d3, ["410.306 430.306 410.308 430.308"]⟩, ⟨0x4d6, 0x4d7, ["415.306 435.306"]⟩,
   ⟨0x4da, 0x4df, ["4d8.308 4d9.308 416.308 436.308 417.308 437.308"]⟩,
   ⟨0x4e2, 0x4e7, ["418.304 438.304 418.308 438.308 41e.308 43e.308"]⟩,
   ⟨0x4ea, 0x4f5, ["4e8.308 4e9.308 42d.308 44d.308 423.304 443.304 423.308 443.308 423.30b",
      "443.30b 427.308 447.308"]⟩,
   ⟨0x4f8, 0x4f9, ["42b.308 44b.308"]⟩, ⟨0x587, 0x587, ["565.582"]⟩,
   ⟨0x622, 0x626, ["627.653 627.654 648.654 627.655 64a.654"]⟩,
   ⟨0x675, 0x678, ["627.674 648.674 6c7.674 64a.674"]⟩, ⟨0x6c0, 0x6c0, ["6d5.654"]⟩,
   ⟨0x6c2, 0x6c2, ["6c1.654"]⟩, ⟨0x6d3, 0x6d3, ["6d2.654"]⟩, ⟨0x929, 0x929, ["928.93c"]⟩,
   ⟨0x931, 0x931, ["930.93c"]⟩, ⟨0x934, 0x934, ["933.93c"]⟩,
   ⟨0x958, 0x95f, ["915.93c 916.93c 917.93c 91c.93c 921.93c 922.93c 92b.93c 92f.93c"]⟩,
   ⟨0x9cb, 0x9cc, ["9c7.9be 9c7.9d7"]⟩, ⟨0x9dc, 0x9dd, ["9a1.9bc 9a2.9bc"]⟩,
   ⟨0x9df, 0x9df, ["9af.9bc"]⟩, ⟨0xa33, 0xa33, ["a32.a3c"]⟩, ⟨0xa36, 0xa36, ["a38.a3c"]⟩,
   ⟨0xa59, 0xa5b, ["a16.a3c a17.a3c a1c.a3c"]⟩, ⟨0xa5e, 0xa5e, ["a2b.a3c"]⟩,
   ⟨0xb48, 0xb48, ["b47.b56"]⟩, ⟨0xb4b, 0xb4c, ["b47.b3e b47.b57"]⟩,
   ⟨0xb5c, 0xb5d, ["b21.b3c b22.b3c"]⟩, ⟨0xb94, 0xb94, ["b92.bd7"]⟩,
   ⟨0xbca, 0xbcc, ["bc6.bbe bc7.bbe bc6.bd7"]⟩, ⟨0xc48, 0xc48, ["c46.c56"]⟩,
   ⟨0xcc0, 0xcc0, ["cbf.cd5"]⟩, ⟨0xcc7, 0xcc8, ["cc6.cd5 cc6.cd6"]⟩,
   ⟨0xcca, 0xccb, ["cc6.cc2 cc6.cc2.cd5"]⟩, ⟨0xd4a, 0xd4c, ["d46.d3e d47.d3e d46.d57"]⟩,
   ⟨0xdda, 0xdda, ["dd9.dca"]⟩, ⟨0xddc, 0xdde, ["dd9.dcf dd9.dcf.dca dd9.ddf"]⟩,
   ⟨0xe33, 0xe33, ["e4d.e32"]⟩, ⟨0xeb3, 0xeb3, ["ecd.eb2"]⟩, ⟨0xedc, 0xedd, ["eab.e99 eab.ea1"]⟩,
   ⟨0xf0c, 0xf0c, ["f0b"]⟩, ⟨0xf43, 0xf43, ["f42.fb7"]⟩, ⟨0xf4d, 0xf4d, ["f4c.fb7"]⟩,
   ⟨0xf52, 0xf52, ["f51.fb7"]⟩, ⟨0xf57, 0xf57, ["f56.fb7"]⟩, ⟨0xf5c, 0xf5c, ["f5b.fb7"]⟩,
   ⟨0xf69, 0xf69, ["f40.fb5"]⟩, ⟨0xf73, 0xf73, ["f71.f72"]⟩,
   ⟨0xf75, 0xf79, ["f71.f74 fb2.f80 fb2.f71.f80 fb3.f80 fb3.f71.f80"]⟩,
   ⟨0xf81, 0xf81, ["f71.f80"]⟩, ⟨0xf93, 0xf93, ["f92.fb7"]⟩, ⟨0xf9d, 0xf9d, ["f9c.fb7"]⟩,
   ⟨0xfa2, 0xfa2, ["fa1.fb7"]⟩, ⟨0xfa7, 0xfa7, ["fa6.fb7"]⟩, ⟨0xfac, 0xfac, ["fab.fb7"]⟩,
   ⟨0xfb9, 0xfb9, ["f90.fb5"]⟩, ⟨0x1026, 0x1026, ["1025.102e"]⟩, ⟨0x10fc, 0x10fc, ["10dc"]⟩,
   ⟨0x1b06, 0x1b06, ["1b05.1b35"]⟩, ⟨0x1b08, 0x1b08, ["1b07.1b35"]⟩,
   ⟨0x1b0a, 0x1b0a, ["1b09.1b35"]⟩, ⟨0x1b0c, 0x1b0c, ["1b0b.1b35"]⟩,
   ⟨0x1b0e, 0x1b0e, ["1b0d.1b35"]⟩, ⟨0x1b12, 0x1b12, ["1b11.1b35"]⟩,
   ⟨0x1b3b, 0x1b3b, ["1b3a.1b35"]⟩, ⟨0x1b3d, 0x1b3d, ["1b3c.1b35"]⟩,
   ⟨0x1b40, 0x1b41, ["1b3e.1b35 1b3f.1b35"]⟩, ⟨0x1b43, 0x1b43, ["1b42.1b35"]⟩,
   ⟨0x1d2c, 0x1d2e, ["41 c6 42"]⟩, ⟨0x1d30, 0x1d3a, ["44 45 18e 47 48 49 4a 4b 4c 4d 4e"]⟩,
   ⟨0x1d3c, 0x1d4d, ["4f 222 50 52 54 55 57 61 250 251 1d02 62 64 65 259 25b 25c 67"]⟩,
   ⟨0x1d4f, 0x1d6a, ["6b 6d 14b 6f 254 1d16 1d17 70 74 75 1d1d 26f 76 1d25 3b2 3b3 3b4 3c6",
      "3c7 69 72 75 76 3b2 3b3 3c1 3c6 3c7"]⟩,
   ⟨0x1d78, 0x1d78, ["43d"]⟩,
   ⟨0x1d9b, 0x1dbf, ["252 63 255 f0 25c 66 25f 261 265 268 269 26a 1d7b 29d 26d 1d85 29f 271",
      "270 272 273 274 275 278 282 283 1ab 289 28a 1d1c 28b 28c 7a 290 291 292 3b8"]⟩,
   ⟨0x1e00, 0x1e9b, ["41.325 61.325 42.307 62.307 42.323 62.323 42.331 62.331 43.327.301",
      "63.327.301 44.307 64.307 44.323 64.323 44.331 64.331 44.327 64.327 44.32d 64.32d",
      "45.304.300 65.304.300 45.304.301 65.304.301 45.32d 65.32d 45.330 65.330 45.327.306",
      "65.327.306 46.307 66.307 47.304 67.304 48.307 68.307 48.323 68.323 48.308 68.308",
      "48.327 68.327 48.32e 68.32e 49.330 69.330 49.308.301 69.308.301 4b.301 6b.301 4b.323",
      "6b.323 4b.331 6b.331 4c.323 6c.323 4c.323.304 6c.323.304 4c.331 6c.331 4c.32d 6c.32d",
      "4d.301 6d.301 4d.307 6d.307 4d.323 6d.323 4e.307 6e.307 4e.323 6e.323 4e.331 6e.331",
      "4e.32d 6e.32d 4f.303.301 6f.303.301 4f.303.308 6f.303.308 4f.304.300 6f.304.300",
      "4f.304.301 6f.304.301 50.301 70.301 50.307 70.307 52.307 72.307 52.323 72.323",
      "52.323.304 72.323.304 52.331 72.331 53.307 73.307 53.323 73.323 53.301.307 73.301.307",
      "53.30c.307 73.30c.307 53.323.307 73.323.307 54.307 74.307 54.323 74.323 54.331 74.331",
      "54.32d 74.32d 55.324 75.324 55.330 75.330 55.32d 75.32d 55.303.301 75.303.301",
      "55.304.308 75.304.308 56.303 76.303 56.323 76.323 57.300 77.300 57.301 77.301 57.308",
      "77.308 57.307 77.307 57.323 77.323 58.307 78.307 58.308 78.308 59.307 79.307 5a.302",
      "7a.302 5a.323 7a.323 5a.331 7a.331 68.331 74.308 77.30a 79.30a 61.2be 73.307"]⟩,
   ⟨0x1ea0, 0x1ef9, ["41.323 61.323 41.309 61.309 41.302.301 61.302.301 41.302.300 61.302.300",
      "41.302.309 61.302.309 41.302.303 61.302.303 41.323.302 61.323.302 41.306.301",
      "61.306.301 41.306.300 61.306.300 41.306.309 61.306.309 41.306.303 61.306.303",
      "41.323.306 61.323.306 45.323 65.323 45.309 65.309 45.303 65.303 45.302.301 65.302.301",
      "45.302.300 65.302.300 45.302.309 65.302.309 45.302.303 65.302.303 45.323.302",
      "65.323.302 49.309 69.309 49.323 69.323 4f.323 6f.323 4f.309 6f.309 4f.302.301",
      "6f.302.301 4f.302.300 6f.302.300 4f.302.309 6f.302.309 4f.302.303 6f.302.303",
      "4f.323.302 6f.323.302 4f.31b.301 6f.31b.301 4f.31b.300 6f.31b.300 4f.31b.309",
      "6f.31b.309 4f.31b.303 6f.31b.303 4f.31b.323 6f.31b.323 55.323 75.323 55.309 75.309",
      "55.31b.301 75.31b.301 55.31b.300 75.31b.300 55.31b.309 75.31b.309 55.31b.303",
      "75.31b.303 55.31b.323 75.31b.323 59.300 79.300 59.323 79.323 59.309 79.309 59.303",
      "79.303"]⟩,
   ⟨0x1f00, 0x1f15, ["3b1.313 3b1.314 3b1.313.300 3b1.314.300 3b1.313.301 3b1.314.301",
      "3b1.313.342 3b1.314.342 391.313 391.314 391.313.300 391.314.300 391.313.301",
      "391.314.301 391.313.342 391.314.342 3b5.313 3b5.314 3b5.313.300 3b5.314.300",
      "3b5.313.301 3b5.314.301"]⟩,
   ⟨0x1f18, 0x1f1d, ["395.313 395.314 395.313.300 395.314.300 395.313.301 395.314.301"]⟩,
   ⟨0x1f20, 0x1f45, ["3b7.313 3b7.314 3b7.313.300 3b7.314.300 3b7.313.301 3b7.314.301",
      "3b7.313.342 3b7.314.342 397.313 397.314 397.313.300 397.314.300 397.313.301",
      "397.314.301 397.313.342 397.314.342 3b9.313 3b9.314 3b9.313.300 3b9.314.300",
      "3b9.313.301 3b9.314.301 3b9.313.342 3b9.314.342 399.313 399.314 399.313.300",
      "399.314.300 399.313.301 399.314.301 399.313.342 399.314.342 3bf.313 3bf.314",
      "3bf.313.300 3bf.314.300 3bf.313.301 3bf.314.301"]⟩,
   ⟨0x1f48, 0x1f4d, ["39f.313 39f.314 39f.313.300 39f.314.300 39f.313.301 39f.314.301"]⟩,
   ⟨0x1f50, 0x1f57, ["3c5.313 3c5.314 3c5.313.300 3c5.314.300 3c5.313.301 3c5.314.301",
      "3c5.313.342 3c5.314.342"]⟩,
   ⟨0x1f59, 0x1f59, ["3a5.314"]⟩, ⟨0x1f5b, 0x1f5b, ["3a5.314.300"]⟩,
   ⟨0x1f5d, 0x1f5d, ["3a5.314.301"]⟩,
   ⟨0x1f5f, 0x1f7d, ["3a5.314.342 3c9.313 3c9.314 3c9.313.300 3c9.314.300 3c9.313.301",
      "3c9.314.301 3c9.313.342 3c9.314.342 3a9.313 3a9.314 3a9.313.300 3a9.314.300",
      "3a9.313.301 3a9.314.301 3a9.313.342 3a9.314.342 3b1.300 3b1.301 3b5.300 3b5.301",
      "3b7.300 3b7.301 3b9.300 3b9.301 3bf.300 3bf.301 3c5.300 3c5.301 3c9.300 3c9.301"]⟩,
   ⟨0x1f80, 0x1fb4, ["3b1.313.345 3b1.314.345 3b1.313.300.345 3b1.314.300.345 3b1.313.301.345",
      "3b1.314.301.345 3b1.313.342.345 3b1.314.342.345 391.313.345 391.314.345",
      "391.313.300.345 391.314.300.345 391.313.301.345 391.314.301.345 391.313.342.345",
      "391.314.342.345 3b7.313.345 3b7.314.345 3b7.313.300.345 3b7.314.300.345",
      "3b7.313.301.345 3b7.314.301.345 3b7.313.342.345 3b7.314.342.345 397.313.345",
      "397.314.345 397.313.300.345 397.314.300.345 397.313.301.345 397.314.301.345",
      "397.313.342.345 397.314.342.345 3c9.313.345 3c9.314.345 3c9.313.300.345",
      "3c9.314.300.345 3c9.313.301.345 3c9.314.301.345 3c9.313.342.345 3c9.314.342.345",
      "3a9.313.345 3a9.314.345 3a9.313.300.345 3a9.314.300.345 3a9.313.301.345",
      "3a9.314.301.345 3a9.313.342.345 3a9.314.342.345 3b1.306 3b1.304 3b1.300.345 3b1.345",
      "3b1.301.345"]⟩,
   ⟨0x1fb6, 0x1fc4, ["3b1.342 3b1.342.345 391.306 391.304 391.300 391.301 391.345 20.313 3b9",
      "20.313 20.342 20.308.342 3b7.300.345 3b7.345 3b7.301.345"]⟩,
   ⟨0x1fc6, 0x1fd3, ["3b7.342 3b7.342.345 395.300 395.301 397.300 397.301 397.345 20.313.300",
      "20.313.301 20.313.342 3b9.306 3b9.304 3b9.308.300 3b9.308.301"]⟩,
   ⟨0x1fd6, 0x1fdb, ["3b9.342 3b9.308.342 399.306 399.304 399.300 399.301"]⟩,
   ⟨0x1fdd, 0x1fef, ["20.314.300 20.314.301 20.314.342 3c5.306 3c5.304 3c5.308.300",
      "3c5.308.301 3c1.313 3c1.314 3c5.342 3c5.308.342 3a5.306 3a5.304 3a5.300 3a5.301",
      "3a1.314 20.308.300 20.308.301 60"]⟩,
   ⟨0x1ff2, 0x1ff4, ["3c9.300.345 3c9.345 3c9.301.345"]⟩,
   ⟨0x1ff6, 0x1ffe, ["3c9.342 3c9.342.345 39f.300 39f.301 3a9.300 3a9.301 3a9.345 20.301",
      "20.314"]⟩,
   ⟨0x2000, 0x200a, ["20 20 20 20 20 20 20 20 20 20 20"]⟩, ⟨0x2011, 0x2011, ["2010"]⟩,
   ⟨0x2017, 0x2017, ["20.333"]⟩, ⟨0x2024, 0x2026, ["2e 2e.2e 2e.2e.2e"]⟩,
   ⟨0x202f, 0x202f, ["20"]⟩, ⟨0x2033, 0x2034, ["2032.2032 2032.2032.2032"]⟩,
   ⟨0x2036, 0x2037, ["2035.2035 2035.2035.2035"]⟩, ⟨0x203c, 0x203c, ["21.21"]⟩,
   ⟨0x203e, 0x203e, ["20.305"]⟩, ⟨0x2047, 0x2049, ["3f.3f 3f.21 21.3f"]⟩,
   ⟨0x2057, 0x2057, ["2032.2032.2032.2032"]⟩, ⟨0x205f, 0x205f, ["20"]⟩,
   ⟨0x2070, 0x2071, ["30 69"]⟩,
   ⟨0x2074, 0x208e, ["34 35 36 37 38 39 2b 2212 3d 28 29 6e 30 31 32 33 34 35 36 37 38 39 2b",
      "2212 3d 28 29"]⟩,
   ⟨0x2090, 0x209c, ["61 65 6f 78 259 68 6b 6c 6d 6e 70 73 74"]⟩, ⟨0x20a8, 0x20a8, ["52.73"]⟩,
   ⟨0x2100, 0x2103, ["61.2f.63 61.2f.73 43 b0.43"]⟩, ⟨0x2105, 0x2107, ["63.2f.6f 63.2f.75 190"]⟩,
   ⟨0x2109, 0x2113, ["b0.46 67 48 48 48 68 127 49 49 4c 6c"]⟩, ⟨0x2115, 0x2116, ["4e 4e.6f"]⟩,
   ⟨0x2119, 0x211d, ["50 51 52 52 52"]⟩, ⟨0x2120, 0x2122, ["53.4d 54.45.4c 54.4d"]⟩,
   ⟨0x2124, 0x2124, ["5a"]⟩, ⟨0x2126, 0x2126, ["3a9"]⟩, ⟨0x2128, 0x2128, ["5a"]⟩,
   ⟨0x212a, 0x212d, ["4b 41.30a 42 43"]⟩, ⟨0x212f, 0x2131, ["65 45 46"]⟩,
   ⟨0x2133, 0x2139, ["4d 6f 5d0 5d1 5d2 5d3 69"]⟩,
   ⟨0x213b, 0x2140, ["46.41.58 3c0 3b3 393 3a0 2211"]⟩, ⟨0x2145, 0x2149, ["44 64 65 69 6a"]⟩,
   ⟨0x2150, 0x217f, ["31.2044.37 31.2044.39 31.2044.31.30 31.2044.33 32.2044.33 31.2044.35",
      "32.2044.35 33.2044.35 34.2044.35 31.2044.36 35.2044.36 31.2044.38 33.2044.38",
      "35.2044.38 37.2044.38 31.2044 49 49.49 49.49.49 49.56 56 56.49 56.49.49 56.49.49.49",
      "49.58 58 58.49 58.49.49 4c 43 44 4d 69 69.69 69.69.69 69.76 76 76.69 76.69.69",
      "76.69.69.69 69.78 78 78.69 78.69.69 6c 63 64 6d"]⟩,
   ⟨0x2189, 0x2189, ["30.2044.33"]⟩, ⟨0x219a, 0x219b, ["2190.338 2192.338"]⟩,
   ⟨0x21ae, 0x21ae, ["2194.338"]⟩, ⟨0x21cd, 0x21cf, ["21d0.338 21d4.338 21d2.338"]⟩,
   ⟨0x2204, 0x2204, ["2203.338"]⟩, ⟨0x2209, 0x2209, ["2208.338"]⟩, ⟨0x220c, 0x220c, ["220b.338"]⟩,
   ⟨0x2224, 0x2224, ["2223.338"]⟩, ⟨0x2226, 0x2226, ["2225.338"]⟩,
   ⟨0x222c, 0x222d, ["222b.222b 222b.222b.222b"]⟩, ⟨0x222f, 0x2230, ["222e.222e 222e.222e.222e"]⟩,
   ⟨0x2241, 0x2241, ["223c.338"]⟩, ⟨0x2244, 0x2244, ["2243.338"]⟩, ⟨0x2247, 0x2247, ["2245.338"]⟩,
   ⟨0x2249, 0x2249, ["2248.338"]⟩, ⟨0x2260, 0x2260, ["3d.338"]⟩, ⟨0x2262, 0x2262, ["2261.338"]⟩,
   ⟨0x226d, 0x2271, ["224d.338 3c.338 3e.338 2264.338 2265.338"]⟩,
   ⟨0x2274, 0x2275, ["2272.338 2273.338"]⟩, ⟨0x2278, 0x2279, ["2276.338 2277.338"]⟩,
   ⟨0x2280, 0x2281, ["227a.338 227b.338"]⟩, ⟨0x2284, 0x2285, ["2282.338 2283.338"]⟩,
   ⟨0x2288, 0x2289, ["2286.338 2287.338"]⟩,
   ⟨0x22ac, 0x22af, ["22a2.338 22a8.338 22a9.338 22ab.338"]⟩,
   ⟨0x22e0, 0x22e3, ["227c.338 227d.338 2291.338 2292.338"]⟩,
   ⟨0x22ea, 0x22ed, ["22b2.338 22b3.338 22b4.338 22b5.338"]⟩, ⟨0x2329, 0x232a, ["3008 3009"]⟩,
   ⟨0x2460, 0x24ea, ["31 32 33 34 35 36 37 38 39 31.30 31.31 31.32 31.33 31.34 31.35 31.36",
      "31.37 31.38 31.39 32.30 28.31.29 28.32.29 28.33.29 28.34.29 28.35.29 28.36.29 28.37.29",
      "28.38.29 28.39.29 28.31.30.29 28.31.31.29 28.31.32.29 28.31.33.29 28.31.34.29",
      "28.31.35.29 28.31.36.29 28.31.37.29 28.31.38.29 28.31.39.29 28.32.30.29 31.2e 32.2e",
      "33.2e 34.2e 35.2e 36.2e 37.2e 38.2e 39.2e 31.30.2e 31.31.2e 31.32.2e 31.33.2e 31.34.2e",
      "31.35.2e 31.36.2e 31.37.2e 31.38.2e 31.39.2e 32.30.2e 28.61.29 28.62.29 28.63.29",
      "28.64.29 28.65.29 28.66.29 28.67.29 28.68.29 28.69.29 28.6a.29 28.6b.29 28.6c.29",
      "28.6d.29 28.6e.29 28.6f.29 28.70.29 28.71.29 28.72.29 28.73.29 28.74.29 28.75.29",
      "28.76.29 28.77.29 28.78.29 28.79.29 28.7a.29 41 42 43 44 45 46 47 48 49 4a 4b 4c 4d 4e",
      "4f 50 51 52 53 54 55 56 57 58 59 5a 61 62 63 64 65 66 67 68 69 6a 6b 6c 6d 6e 6f 70 71",
      "72 73 74 75 76 77 78 79 7a 30"]⟩,
   ⟨0x2a0c, 0x2a0c, ["222b.222b.222b.222b"]⟩, ⟨0x2a74, 0x2a76, ["3a.3a.3d 3d.3d 3d.3d.3d"]⟩,
   ⟨0x2adc, 0x2adc, ["2add.338"]⟩, ⟨0x2c7c, 0x2c7d, ["6a 56"]⟩, ⟨0x2d6f, 0x2d6f, ["2d61"]⟩,
   ⟨0x2e9f, 0x2e9f, ["6bcd"]⟩, ⟨0x2ef3, 0x2ef3, ["9f9f"]⟩,
   ⟨0x2f00, 0x2fd5, ["4e00 4e28 4e36 4e3f 4e59 4e85 4e8c 4ea0 4eba 513f 5165 516b 5182 5196",
      "51ab 51e0 51f5 5200 529b 52f9 5315 531a 5338 5341 535c 5369 5382 53b6 53c8 53e3 56d7",
      "571f 58eb 5902 590a 5915 5927 5973 5b50 5b80 5bf8 5c0f 5c22 5c38 5c6e 5c71 5ddb 5de5",
      "5df1 5dfe 5e72 5e7a 5e7f 5ef4 5efe 5f0b 5f13 5f50 5f61 5f73 5fc3 6208 6236 624b 652f",
      "6534 6587 6597 65a4 65b9 65e0 65e5 66f0 6708 6728 6b20 6b62 6b79 6bb3 6bcb 6bd4 6bdb",
      "6c0f 6c14 6c34 706b 722a 7236 723b 723f 7247 7259 725b 72ac 7384 7389 74dc 74e6 7518",
      "751f 7528 7530 758b 7592 7676 767d 76ae 76bf 76ee 77db 77e2 77f3 793a 79b8 79be 7a74",
      "7acb 7af9 7c73 7cf8 7f36 7f51 7f8a 7fbd 8001 800c 8012 8033 807f 8089 81e3 81ea 81f3",
      "81fc 820c 821b 821f 826e 8272 8278 864d 866b 8840 884c 8863 897e 898b 89d2 8a00 8c37",
      "8c46 8c55 8c78 8c9d 8d64 8d70 8db3 8eab 8eca 8f9b 8fb0 8fb5 9091 9149 91c6 91cc 91d1",
      "9577 9580 961c 96b6 96b9 96e8 9751 975e 9762 9769 97cb 97ed 97f3 9801 98a8 98db 98df",
      "9996 9999 99ac 9aa8 9ad8 9adf 9b25 9b2f 9b32 9b3c 9b5a 9ce5 9e75 9e7f 9ea5 9ebb 9ec3",
      "9ecd 9ed1 9ef9 9efd 9f0e 9f13 9f20 9f3b 9f4a 9f52 9f8d 9f9c 9fa0"]⟩,
   ⟨0x3000, 0x3000, ["20"]⟩, ⟨0x3036, 0x3036, ["3012"]⟩, ⟨0x3038, 0x303a, ["5341 5344 5345"]⟩,
   ⟨0x304c, 0x304c, ["304b.3099"]⟩, ⟨0x304e, 0x304e, ["304d.3099"]⟩,
   ⟨0x3050, 0x3050, ["304f.3099"]⟩, ⟨0x3052, 0x3052, ["3051.3099"]⟩,
   ⟨0x3054, 0x3054, ["3053.3099"]⟩, ⟨0x3056, 0x3056, ["3055.3099"]⟩,
   ⟨0x3058, 0x3058, ["3057.3099"]⟩, ⟨0x305a, 0x305a, ["3059.3099"]⟩,
   ⟨0x305c, 0x305c, ["305b.3099"]⟩, ⟨0x305e, 0x305e, ["305d.3099"]⟩,
   ⟨0x3060, 0x3060, ["305f.3099"]⟩, ⟨0x3062, 0x3062, ["3061.3099"]⟩,
   ⟨0x3065, 0x3065, ["3064.3099"]⟩, ⟨0x3067, 0x3067, ["3066.3099"]⟩,
   ⟨0x3069, 0x3069, ["3068.3099"]⟩, ⟨0x3070, 0x3071, ["306f.3099 306f.309a"]⟩,
   ⟨0x3073, 0x3074, ["3072.3099 3072.309a"]⟩, ⟨0x3076, 0x3077, ["3075.3099 3075.309a"]⟩,
   ⟨0x3079, 0x307a, ["3078.3099 3078.309a"]⟩, ⟨0x307c, 0x307d, ["307b.3099 307b.309a"]⟩,
   ⟨0x3094, 0x3094, ["3046.3099"]⟩, ⟨0x309b, 0x309c, ["20.3099 20.309a"]⟩,
   ⟨0x309e, 0x309f, ["309d.3099 3088.308a"]⟩, ⟨0x30ac, 0x30ac, ["30ab.3099"]⟩,
   ⟨0x30ae, 0x30ae, ["30ad.3099"]⟩, ⟨0x30b0, 0x30b0, ["30af.3099"]⟩,
   ⟨0x30b2, 0x30b2, ["30b1.3099"]⟩, ⟨0x30b4, 0x30b4, ["30b3.3099"]⟩,
   ⟨0x30b6, 0x30b6, ["30b5.3099"]⟩, ⟨0x30b8, 0x30b8, ["30b7.3099"]⟩,
   ⟨0x30ba, 0x30ba, ["30b9.3099"]⟩, ⟨0x30bc, 0x30bc, ["30bb.3099"]⟩,
   ⟨0x30be, 0x30be, ["30bd.3099"]⟩, ⟨0x30c0, 0x30c0, ["30bf.3099"]⟩,
   ⟨0x30c2, 0x30c2, ["30c1.3099"]⟩, ⟨0x30c5, 0x30c5, ["30c4.3099"]⟩,
   ⟨0x30c7, 0x30c7, ["30c6.3099"]⟩, ⟨0x30c9, 0x30c9, ["30c8.3099"]⟩,
   ⟨0x30d0, 0x30d1, ["30cf.3099 30cf.309a"]⟩, ⟨0x30d3, 0x30d4, ["30d2.3099 30d2.309a"]⟩,
   ⟨0x30d6, 0x30d7, ["30d5.3099 30d5.309a"]⟩, ⟨0x30d9, 0x30da, ["30d8.3099 30d8.309a"]⟩,
   ⟨0x30dc, 0x30dd, ["30db.3099 30db.309a"]⟩, ⟨0x30f4, 0x30f4, ["30a6.3099"]⟩,
   ⟨0x30f7, 0x30fa, ["30ef.3099 30f0.3099 30f1.3099 30f2.3099"]⟩,
   ⟨0x30fe, 0x30ff, ["30fd.3099 30b3.30c8"]⟩,
   ⟨0x3131, 0x318e, ["1100 1101 11aa 1102 11ac 11ad 1103 1104 1105 11b0 11b1 11b2 11b3 11b4",
      "11b5 111a 1106 1107 1108 1121 1109 110a 110b 110c 110d 110e 110f 1110 1111 1112 1161",
      "1162 1163 1164 1165 1166 1167 1168 1169 116a 116b 116c 116d 116e 116f 1170 1171 1172",
      "1173 1174 1175 1160 1114 1115 11c7 11c8 11cc 11ce 11d3 11d7 11d9 111c 11dd 11df 111d",
      "111e 1120 1122 1123 1127 1129 112b 112c 112d 112e 112f 1132 1136 1140 1147 114c 11f1",
      "11f2 1157 1158 1159 1184 1185 1188 1191 1192 1194 119e 11a1"]⟩,
   ⟨0x3192, 0x319f, ["4e00 4e8c 4e09 56db 4e0a 4e2d 4e0b 7532 4e59 4e19 4e01 5929 5730 4eba"]⟩,
   ⟨0x3200, 0x321e, ["28.1100.29 28.1102.29 28.1103.29 28.1105.29 28.1106.29 28.1107.29",
      "28.1109.29 28.110b.29 28.110c.29 28.110e.29 28.110f.29 28.1110.29 28.1111.29",
      "28.1112.29 28.1100.1161.29 28.1102.1161.29 28.1103.1161.29 28.1105.1161.29",
      "28.1106.1161.29 28.1107.1161.29 28.1109.1161.29 28.110b.1161.29 28.110c.1161.29",
      "28.110e.1161.29 28.110f.1161.29 28.1110.1161.29 28.1111.1161.29 28.1112.1161.29",
      "28.110c.116e.29 28.110b.1169.110c.1165.11ab.29 28.110b.1169.1112.116e.29"]⟩,
   ⟨0x3220, 0x3247, ["28.4e00.29 28.4e8c.29 28.4e09.29 28.56db.29 28.4e94.29 28.516d.29",
      "28.4e03.29 28.516b.29 28.4e5d.29 28.5341.29 28.6708.29 28.706b.29 28.6c34.29",
      "28.6728.29 28.91d1.29 28.571f.29 28.65e5.29 28.682a.29 28.6709.29 28.793e.29",
      "28.540d.29 28.7279.29 28.8ca1.29 28.795d.29 28.52b4.29 28.4ee3.29 28.547c.29",
      "28.5b66.29 28.76e3.29 28.4f01.29 28.8cc7.29 28.5354.29 28.796d.29 28.4f11.29",
      "28.81ea.29 28.81f3.29 554f 5e7c 6587 7b8f"]⟩,
   ⟨0x3250, 0x327e, ["50.54.45 32.31 32.32 32.33 32.34 32.35 32.36 32.37 32.38 32.39 33.30",
      "33.31 33.32 33.33 33.34 33.35 1100 1102 1103 1105 1106 1107 1109 110b 110c 110e 110f",
      "1110 1111 1112 1100.1161 1102.1161 1103.1161 1105.1161 1106.1161 1107.1161 1109.1161",
      "110b.1161 110c.1161 110e.1161 110f.1161 1110.1161 1111.1161 1112.1161",
      "110e.1161.11b7.1100.1169 110c.116e.110b.1174 110b.116e"]⟩,
   ⟨0x3280, 0x33ff, ["4e00 4e8c 4e09 56db 4e94 516d 4e03 516b 4e5d 5341 6708 706b 6c34 6728",
      "91d1 571f 65e5 682a 6709 793e 540d 7279 8ca1 795d 52b4 79d8 7537 5973 9069 512a 5370",
      "6ce8 9805 4f11 5199 6b63 4e0a 4e2d 4e0b 5de6 53f3 533b 5b97 5b66 76e3 4f01 8cc7 5354",
      "591c 33.36 33.37 33.38 33.39 34.30 34.31 34.32 34.33 34.34 34.35 34.36 34.37 34.38",
      "34.39 35.30 31.6708 32.6708 33.6708 34.6708 35.6708 36.6708 37.6708 38.6708 39.6708",
      "31.30.6708 31.31.6708 31.32.6708 48.67 65.72.67 65.56 4c.54.44 30a2 30a4 30a6 30a8",
      "30aa 30ab 30ad 30af 30b1 30b3 30b5 30b7 30b9 30bb 30bd 30bf 30c1 30c4 30c6 30c8 30ca",
      "30cb 30cc 30cd 30ce 30cf 30d2 30d5 30d8 30db 30de 30df 30e0 30e1 30e2 30e4 30e6 30e8",
      "30e9 30ea 30eb 30ec 30ed 30ef 30f0 30f1 30f2 4ee4.548c 30a2.30cf.309a.30fc.30c8",
      "30a2.30eb.30d5.30a1 30a2.30f3.30d8.309a.30a2 30a2.30fc.30eb 30a4.30cb.30f3.30af.3099",
      "30a4.30f3.30c1 30a6.30a9.30f3 30a8.30b9.30af.30fc.30c8.3099 30a8.30fc.30ab.30fc",
      "30aa.30f3.30b9 30aa.30fc.30e0 30ab.30a4.30ea 30ab.30e9.30c3.30c8 30ab.30ed.30ea.30fc",
      "30ab.3099.30ed.30f3 30ab.3099.30f3.30de 30ad.3099.30ab.3099 30ad.3099.30cb.30fc",
      "30ad.30e5.30ea.30fc 30ad.3099.30eb.30bf.3099.30fc 30ad.30ed",
      "30ad.30ed.30af.3099.30e9.30e0 30ad.30ed.30e1.30fc.30c8.30eb 30ad.30ed.30ef.30c3.30c8",
      "30af.3099.30e9.30e0 30af.3099.30e9.30e0.30c8.30f3 30af.30eb.30bb.3099.30a4.30ed",
      "30af.30ed.30fc.30cd 30b1.30fc.30b9 30b3.30eb.30ca 30b3.30fc.30db.309a",
      "30b5.30a4.30af.30eb 30b5.30f3.30c1.30fc.30e0 30b7.30ea.30f3.30af.3099 30bb.30f3.30c1",
      "30bb.30f3.30c8 30bf.3099.30fc.30b9 30c6.3099.30b7 30c8.3099.30eb 30c8.30f3 30ca.30ce",
      "30ce.30c3.30c8 30cf.30a4.30c4 30cf.309a.30fc.30bb.30f3.30c8 30cf.309a.30fc.30c4",
      "30cf.3099.30fc.30ec.30eb 30d2.309a.30a2.30b9.30c8.30eb 30d2.309a.30af.30eb",
      "30d2.309a.30b3 30d2.3099.30eb 30d5.30a1.30e9.30c3.30c8.3099 30d5.30a3.30fc.30c8",
      "30d5.3099.30c3.30b7.30a7.30eb 30d5.30e9.30f3 30d8.30af.30bf.30fc.30eb 30d8.309a.30bd",
      "30d8.309a.30cb.30d2 30d8.30eb.30c4 30d8.309a.30f3.30b9 30d8.309a.30fc.30b7.3099",
      "30d8.3099.30fc.30bf 30db.309a.30a4.30f3.30c8 30db.3099.30eb.30c8 30db.30f3",
      "30db.309a.30f3.30c8.3099 30db.30fc.30eb 30db.30fc.30f3 30de.30a4.30af.30ed",
      "30de.30a4.30eb 30de.30c3.30cf 30de.30eb.30af 30de.30f3.30b7.30e7.30f3",
      "30df.30af.30ed.30f3 30df.30ea 30df.30ea.30cf.3099.30fc.30eb 30e1.30ab.3099",
      "30e1.30ab.3099.30c8.30f3 30e1.30fc.30c8.30eb 30e4.30fc.30c8.3099 30e4.30fc.30eb",
      "30e6.30a2.30f3 30ea.30c3.30c8.30eb 30ea.30e9 30eb.30d2.309a.30fc",
      "30eb.30fc.30d5.3099.30eb 30ec.30e0 30ec.30f3.30c8.30b1.3099.30f3 30ef.30c3.30c8",
      "30.70b9 31.70b9 32.70b9 33.70b9 34.70b9 35.70b9 36.70b9 37.70b9 38.70b9 39.70b9",
      "31.30.70b9 31.31.70b9 31.32.70b9 31.33.70b9 31.34.70b9 31.35.70b9 31.36.70b9",
      "31.37.70b9 31.38.70b9 31.39.70b9 32.30.70b9 32.31.70b9 32.32.70b9 32.33.70b9",
      "32.34.70b9 68.50.61 64.61 41.55 62.61.72 6f.56 70.63 64.6d 64.6d.32 64.6d.33 49.55",
      "5e73.6210 662d.548c 5927.6b63 660e.6cbb 682a.5f0f.4f1a.793e 70.41 6e.41 3bc.41 6d.41",
      "6b.41 4b.42 4d.42 47.42 63.61.6c 6b.63.61.6c 70.46 6e.46 3bc.46 3bc.67 6d.67 6b.67",
      "48.7a 6b.48.7a 4d.48.7a 47.48.7a 54.48.7a 3bc.6c 6d.6c 64.6c 6b.6c 66.6d 6e.6d 3bc.6d",
      "6d.6d 63.6d 6b.6d 6d.6d.32 63.6d.32 6d.32 6b.6d.32 6d.6d.33 63.6d.33 6d.33 6b.6d.33",
      "6d.2215.73 6d.2215.73.32 50.61 6b.50.61 4d.50.61 47.50.61 72.61.64 72.61.64.2215.73",
      "72.61.64.2215.73.32 70.73 6e.73 3bc.73 6d.73 70.56 6e.56 3bc.56 6d.56 6b.56 4d.56",
      "70.57 6e.57 3bc.57 6d.57 6b.57 4d.57 6b.3a9 4d.3a9 61.2e.6d.2e 42.71 63.63 63.64",
      "43.2215.6b.67 43.6f.2e 64.42 47.79 68.61 48.50 69.6e 4b.4b 4b.4d 6b.74 6c.6d 6c.6e",
      "6c.6f.67 6c.78 6d.62 6d.69.6c 6d.6f.6c 50.48 70.2e.6d.2e 50.50.4d 50.52 73.72 53.76",
      "57.62 56.2215.6d 41.2215.6d 31.65e5 32.65e5 33.65e5 34.65e5 35.65e5 36.65e5 37.65e5",
      "38.65e5 39.65e5 31.30.65e5 31.31.65e5 31.32.65e5 31.33.65e5 31.34.65e5 31.35.65e5",
      "31.36.65e5 31.37.65e5 31.38.65e5 31.39.65e5 32.30.65e5 32.31.65e5 32.32.65e5",
      "32.33.65e5 32.34.65e5 32.35.65e5 32.36.65e5 32.37.65e5 32.38.65e5 32.39.65e5",
      "33.30.65e5 33.31.65e5 67.61.6c"]⟩,
   ⟨0xa69c, 0xa69d, ["44a 44c"]⟩, ⟨0xa770, 0xa770, ["a76f"]⟩, ⟨0xa7f2, 0xa7f4, ["43 46 51"]⟩,
   ⟨0xa7f8, 0xa7f9, ["126 153"]⟩, ⟨0xab5c, 0xab5f, ["a727 ab37 26b ab52"]⟩,
   ⟨0xab69, 0xab69, ["28d"]⟩,
   ⟨0xf900, 0xfa0d, ["8c48 66f4 8eca 8cc8 6ed1 4e32 53e5 9f9c 9f9c 5951 91d1 5587 5948 61f6",
      "7669 7f85 863f 87ba 88f8 908f 6a02 6d1b 70d9 73de 843d 916a 99f1 4e82 5375 6b04 721b",
      "862d 9e1e 5d50 6feb 85cd 8964 62c9 81d8 881f 5eca 6717 6d6a 72fc 90ce 4f86 51b7 52de",
      "64c4 6ad3 7210 76e7 8001 8606 865c 8def 9732 9b6f 9dfa 788c 797f 7da0 83c9 9304 9e7f",
      "8ad6 58df 5f04 7c60 807e 7262 78ca 8cc2 96f7 58d8 5c62 6a13 6dda 6f0f 7d2f 7e37 964b",
      "52d2 808b 51dc 51cc 7a1c 7dbe 83f1 9675 8b80 62cf 6a02 8afe 4e39 5be7 6012 7387 7570",
      "5317 78fb 4fbf 5fa9 4e0d 6ccc 6578 7d22 53c3 585e 7701 8449 8aaa 6bba 8fb0 6c88 62fe",
      "82e5 63a0 7565 4eae 5169 51c9 6881 7ce7 826f 8ad2 91cf 52f5 5442 5973 5eec 65c5 6ffe",
      "792a 95ad 9a6a 9e97 9ece 529b 66c6 6b77 8f62 5e74 6190 6200 649a 6f23 7149 7489 79ca",
      "7df4 806f 8f26 84ee 9023 934a 5217 52a3 54bd 70c8 88c2 8aaa 5ec9 5ff5 637b 6bae 7c3e",
      "7375 4ee4 56f9 5be7 5dba 601c 73b2 7469 7f9a 8046 9234 96f6 9748 9818 4f8b 79ae 91b4",
      "96b8 60e1 4e86 50da 5bee 5c3f 6599 6a02 71ce 7642 84fc 907c 9f8d 6688 962e 5289 677b",
      "67f3 6d41 6e9c 7409 7559 786b 7d10 985e 516d 622e 9678 502b 5d19 6dea 8f2a 5f8b 6144",
      "6817 7387 9686 5229 540f 5c65 6613 674e 68a8 6ce5 7406 75e2 7f79 88cf 88e1 91cc 96e2",
      "533f 6eba 541d 71d0 7498 85fa 96a3 9c57 9e9f 6797 6dcb 81e8 7acb 7b20 7c92 72c0 7099",
      "8b58 4ec0 8336 523a 5207 5ea6 62d3 7cd6 5b85 6d1e 66b4 8f3b 884c 964d 898b 5ed3 5140",
      "55c0"]⟩,
   ⟨0xfa10, 0xfa10, ["585a"]⟩, ⟨0xfa12, 0xfa12, ["6674"]⟩,
   ⟨0xfa15, 0xfa1e, ["51de 732a 76ca 793c 795e 7965 798f 9756 7cbe 7fbd"]⟩,
   ⟨0xfa20, 0xfa20, ["8612"]⟩, ⟨0xfa22, 0xfa22, ["8af8"]⟩, ⟨0xfa25, 0xfa26, ["9038 90fd"]⟩,
   ⟨0xfa2a, 0xfa6d, ["98ef 98fc 9928 9db4 90de 96b7 4fae 50e7 514d 52c9 52e4 5351 559d 5606",
      "5668 5840 58a8 5c64 5c6e 6094 6168 618e 61f2 654f 65e2 6691 6885 6d77 6e1a 6f22 716e",
      "722b 7422 7891 793e 7949 7948 7950 7956 795d 798d 798e 7a40 7a81 7bc0 7df4 7e09 7e41",
      "7f72 8005 81ed 8279 8279 8457 8910 8996 8b01 8b39 8cd3 8d08 8fb6 9038 96e3 97ff 983b",
      "6075 242ee 8218"]⟩,
   ⟨0xfa70, 0xfad9, ["4e26 51b5 5168 4f80 5145 5180 52c7 52fa 559d 5555 5599 55e2 585a 58b3",
      "5944 5954 5a62 5b28 5ed2 5ed9 5f69 5fad 60d8 614e 6108 618e 6160 61f2 6234 63c4 641c",
      "6452 6556 6674 6717 671b 6756 6b79 6bba 6d41 6edb 6ecb 6f22 701e 716e 77a7 7235 72af",
      "732a 7471 7506 753b 761d 761f 76ca 76db 76f4 774a 7740 78cc 7ab1 7bc0 7c7b 7d5b 7df4",
      "7f3e 8005 8352 83ef 8779 8941 8986 8996 8abf 8af8 8acb 8b01 8afe 8aed 8b39 8b8a 8d08",
      "8f38 9072 9199 9276 967c 96e3 9756 97db 97ff 980b 983b 9b12 9f9c 2284a 22844 233d5",
      "3b9d 4018 4039 25249 25cd0 27ed3 9f43 9f8e"]⟩,
   ⟨0xfb00, 0xfb06, ["66.66 66.69 66.6c 66.66.69 66.66.6c 73.74 73.74"]⟩,
   ⟨0xfb13, 0xfb17, ["574.576 574.565 574.56b 57e.576 574.56d"]⟩, ⟨0xfb1d, 0xfb1d, ["5d9.5b4"]⟩,
   ⟨0xfb1f, 0xfb36, ["5f2.5b7 5e2 5d0 5d3 5d4 5db 5dc 5dd 5e8 5ea 2b 5e9.5c1 5e9.5c2",
      "5e9.5bc.5c1 5e9.5bc.5c2 5d0.5b7 5d0.5b8 5d0.5bc 5d1.5bc 5d2.5bc 5d3.5bc 5d4.5bc",
      "5d5.5bc 5d6.5bc"]⟩,
   ⟨0xfb38, 0xfb3c, ["5d8.5bc 5d9.5bc 5da.5bc 5db.5bc 5dc.5bc"]⟩, ⟨0xfb3e, 0xfb3e, ["5de.5bc"]⟩,
   ⟨0xfb40, 0xfb41, ["5e0.5bc 5e1.5bc"]⟩, ⟨0xfb43, 0xfb44, ["5e3.5bc 5e4.5bc"]⟩,
   ⟨0xfb46, 0xfbb1, ["5e6.5bc 5e7.5bc 5e8.5bc 5e9.5bc 5ea.5bc 5d5.5b9 5d1.5bf 5db.5bf 5e4.5bf",
      "5d0.5dc 671 671 67b 67b 67b 67b 67e 67e 67e 67e 680 680 680 680 67a 67a 67a 67a 67f",
      "67f 67f 67f 679 679 679 679 6a4 6a4 6a4 6a4 6a6 6a6 6a6 6a6 684 684 684 684 683 683",
      "683 683 686 686 686 686 687 687 687 687 68d 68d 68c 68c 68e 68e 688 688 698 698 691",
      "691 6a9 6a9 6a9 6a9 6af 6af 6af 6af 6b3 6b3 6b3 6b3 6b1 6b1 6b1 6b1 6ba 6ba 6bb 6bb",
      "6bb 6bb 6d5.654 6d5.654 6c1 6c1 6c1 6c1 6be 6be 6be 6be 6d2 6d2 6d2.654 6d2.654"]⟩,
   ⟨0xfbd3, 0xfd3d, ["6ad 6ad 6ad 6ad 6c7 6c7 6c6 6c6 6c8 6c8 6c7.674 6cb 6cb 6c5 6c5 6c9 6c9",
      "6d0 6d0 6d0 6d0 649 649 64a.654.627 64a.654.627 64a.654.6d5 64a.654.6d5 64a.654.648",
      "64a.654.648 64a.654.6c7 64a.654.6c7 64a.654.6c6 64a.654.6c6 64a.654.6c8 64a.654.6c8",
      "64a.654.6d0 64a.654.6d0 64a.654.6d0 64a.654.649 64a.654.649 64a.654.649 6cc 6cc 6cc",
      "6cc 64a.654.62c 64a.654.62d 64a.654.645 64a.654.649 64a.654.64a 628.62c 628.62d",
      "628.62e 628.645 628.649 628.64a 62a.62c 62a.62d 62a.62e 62a.645 62a.649 62a.64a",
      "62b.62c 62b.645 62b.649 62b.64a 62c.62d 62c.645 62d.62c 62d.645 62e.62c 62e.62d",
      "62e.645 633.62c 633.62d 633.62e 633.645 635.62d 635.645 636.62c 636.62d 636.62e",
      "636.645 637.62d 637.645 638.645 639.62c 639.645 63a.62c 63a.645 641.62c 641.62d",
      "641.62e 641.645 641.649 641.64a 642.62d 642.645 642.649 642.64a 643.627 643.62c",
      "643.62d 643.62e 643.644 643.645 643.649 643.64a 644.62c 644.62d 644.62e 644.645",
      "644.649 644.64a 645.62c 645.62d 645.62e 645.645 645.649 645.64a 646.62c 646.62d",
      "646.62e 646.645 646.649 646.64a 647.62c 647.645 647.649 647.64a 64a.62c 64a.62d",
      "64a.62e 64a.645 64a.649 64a.64a 630.670 631.670 649.670 20.64c.651 20.64d.651",
      "20.64e.651 20.64f.651 20.650.651 20.651.670 64a.654.631 64a.654.632 64a.654.645",
      "64a.654.646 64a.654.649 64a.654.64a 628.631 628.632 628.645 628.646 628.649 628.64a",
      "62a.631 62a.632 62a.645 62a.646 62a.649 62a.64a 62b.631 62b.632 62b.645 62b.646",
      "62b.649 62b.64a 641.649 641.64a 642.649 642.64a 643.627 643.644 643.645 643.649",
      "643.64a 644.645 644.649 644.64a 645.627 645.645 646.631 646.632 646.645 646.646",
      "646.649 646.64a 649.670 64a.631 64a.632 64a.645 64a.646 64a.649 64a.64a 64a.654.62c",
      "64a.654.62d 64a.654.62e 64a.654.645 64a.654.647 628.62c 628.62d 628.62e 628.645",
      "628.647 62a.62c 62a.62d 62a.62e 62a.645 62a.647 62b.645 62c.62d 62c.645 62d.62c",
      "62d.645 62e.62c 62e.645 633.62c 633.62d 633.62e 633.645 635.62d 635.62e 635.645",
      "636.62c 636.62d 636.62e 636.645 637.62d 638.645 639.62c 639.645 63a.62c 63a.645",
      "641.62c 641.62d 641.62e 641.645 642.62d 642.645 643.62c 643.62d 643.62e 643.644",
      "643.645 644.62c 644.62d 644.62e 644.645 644.647 645.62c 645.62d 645.62e 645.645",
      "646.62c 646.62d 646.62e 646.645 646.647 647.62c 647.645 647.670 64a.62c 64a.62d",
      "64a.62e 64a.645 64a.647 64a.654.645 64a.654.647 628.645 628.647 62a.645 62a.647",
      "62b.645 62b.647 633.645 633.647 634.645 634.647 643.644 643.645 644.645 646.645",
      "646.647 64a.645 64a.647 640.64e.651 640.64f.651 640.650.651 637.649 637.64a 639.649",
      "639.64a 63a.649 63a.64a 633.649 633.64a 634.649 634.64a 62d.649 62d.64a 62c.649",
      "62c.64a 62e.649 62e.64a 635.649 635.64a 636.649 636.64a 634.62c 634.62d 634.62e",
      "634.645 634.631 633.631 635.631 636.631 637.649 637.64a 639.649 639.64a 63a.649",
      "63a.64a 633.649 633.64a 634.649 634.64a 62d.649 62d.64a 62c.649 62c.64a 62e.649",
      "62e.64a 635.649 635.64a 636.649 636.64a 634.62c 634.62d 634.62e 634.645 634.631",
      "633.631 635.631 636.631 634.62c 634.62d 634.62e 634.645 633.647 634.647 637.645",
      "633.62c 633.62d 633.62e 634.62c 634.62d 634.62e 637.645 638.645 627.64b 627.64b"]⟩,
   ⟨0xfd50, 0xfd8f, ["62a.62c.645 62a.62d.62c 62a.62d.62c 62a.62d.645 62a.62e.645 62a.645.62c",
      "62a.645.62d 62a.645.62e 62c.645.62d 62c.645.62d 62d.645.64a 62d.645.649 633.62d.62c",
      "633.62c.62d 633.62c.649 633.645.62d 633.645.62d 633.645.62c 633.645.645 633.645.645",
      "635.62d.62d 635.62d.62d 635.645.645 634.62d.645 634.62d.645 634.62c.64a 634.645.62e",
      "634.645.62e 634.645.645 634.645.645 636.62d.649 636.62e.645 636.62e.645 637.645.62d",
      "637.645.62d 637.645.645 637.645.64a 639.62c.645 639.645.645 639.645.645 639.645.649",
      "63a.645.645 63a.645.64a 63a.645.649 641.62e.645 641.62e.645 642.645.62d 642.645.645",
      "644.62d.645 644.62d.64a 644.62d.649 644.62c.62c 644.62c.62c 644.62e.645 644.62e.645",
      "644.645.62d 644.645.62d 645.62d.62c 645.62d.645 645.62d.64a 645.62c.62d 645.62c.645",
      "645.62e.62c 645.62e.645"]⟩,
   ⟨0xfd92, 0xfdc7, ["645.62c.62e 647.645.62c 647.645.645 646.62d.645 646.62d.649 646.62c.645",
      "646.62c.645 646.62c.649 646.645.64a 646.645.649 64a.645.645 64a.645.645 628.62e.64a",
      "62a.62c.64a 62a.62c.649 62a.62e.64a 62a.62e.649 62a.645.64a 62a.645.649 62c.645.64a",
      "62c.62d.649 62c.645.649 633.62e.649 635.62d.64a 634.62d.64a 636.62d.64a 644.62c.64a",
      "644.645.64a 64a.62d.64a 64a.62c.64a 64a.645.64a 645.645.64a 642.645.64a 646.62d.64a",
      "642.645.62d 644.62d.645 639.645.64a 643.645.64a 646.62c.62d 645.62e.64a 644.62c.645",
      "643.645.645 644.62c.645 646.62c.62d 62c.62d.64a 62d.62c.64a 645.62c.64a 641.645.64a",
      "628.62d.64a 643.645.645 639.62c.645 635.645.645 633.62e.64a 646.62c.64a"]⟩,
   ⟨0xfdf0, 0xfdfc, ["635.644.6d2 642.644.6d2 627.644.644.647 627.643.628.631 645.62d.645.62f",
      "635.644.639.645 631.633.648.644 639.644.64a.647 648.633.644.645 635.644.649",
      "635.644.649.20.627.644.644.647.20.639.644.64a.647.20.648.633.644.645",
      "62c.644.20.62c.644.627.644.647 631.6cc.627.644"]⟩,
   ⟨0xfe10, 0xfe19, ["2c 3001 3002 3a 3b 21 3f 3016 3017 2e.2e.2e"]⟩,
   ⟨0xfe30, 0xfe44, ["2e.2e 2014 2013 5f 5f 28 29 7b 7d 3014 3015 3010 3011 300a 300b 3008",
      "3009 300c 300d 300e 300f"]⟩,
   ⟨0xfe47, 0xfe52, ["5b 5d 20.305 20.305 20.305 20.305 5f 5f 5f 2c 3001 2e"]⟩,
   ⟨0xfe54, 0xfe66, ["3b 3a 3f 21 2014 28 29 7b 7d 3014 3015 23 26 2a 2b 2d 3c 3e 3d"]⟩,
   ⟨0xfe68, 0xfe6b, ["5c 24 25 40"]⟩, ⟨0xfe70, 0xfe72, ["20.64b 640.64b 20.64c"]⟩,
   ⟨0xfe74, 0xfe74, ["20.64d"]⟩,
   ⟨0xfe76, 0xfefc, ["20.64e 640.64e 20.64f 640.64f 20.650 640.650 20.651 640.651 20.652",
      "640.652 621 627.653 627.653 627.654 627.654 648.654 648.654 627.655 627.655 64a.654",
      "64a.654 64a.654 64a.654 627 627 628 628 628 628 629 629 62a 62a 62a 62a 62b 62b 62b",
      "62b 62c 62c 62c 62c 62d 62d 62d 62d 62e 62e 62e 62e 62f 62f 630 630 631 631 632 632",
      "633 633 633 633 634 634 634 634 635 635 635 635 636 636 636 636 637 637 637 637 638",
      "638 638 638 639 639 639 639 63a 63a 63a 63a 641 641 641 641 642 642 642 642 643 643",
      "643 643 644 644 644 644 645 645 645 645 646 646 646 646 647 647 647 647 648 648 649",
      "649 64a 64a 64a 64a 644.627.653 644.627.653 644.627.654 644.627.654 644.627.655",
      "644.627.655 644.627 644.627"]⟩,
   ⟨0xff01, 0xffbe, ["21 22 23 24 25 26 27 28 29 2a 2b 2c 2d 2e 2f 30 31 32 33 34 35 36 37 38",
      "39 3a 3b 3c 3d 3e 3f 40 41 42 43 44 45 46 47 48 49 4a 4b 4c 4d 4e 4f 50 51 52 53 54 55",
      "56 57 58 59 5a 5b 5c 5d 5e 5f 60 61 62 63 64 65 66 67 68 69 6a 6b 6c 6d 6e 6f 70 71 72",
      "73 74 75 76 77 78 79 7a 7b 7c 7d 7e 2985 2986 3002 300c 300d 3001 30fb 30f2 30a1 30a3",
      "30a5 30a7 30a9 30e3 30e5 30e7 30c3 30fc 30a2 30a4 30a6 30a8 30aa 30ab 30ad 30af 30b1",
      "30b3 30b5 30b7 30b9 30bb 30bd 30bf 30c1 30c4 30c6 30c8 30ca 30cb 30cc 30cd 30ce 30cf",
      "30d2 30d5 30d8 30db 30de 30df 30e0 30e1 30e2 30e4 30e6 30e8 30e9 30ea 30eb 30ec 30ed",
      "30ef 30f3 3099 309a 1160 1100 1101 11aa 1102 11ac 11ad 1103 1104 1105 11b0 11b1 11b2",
      "11b3 11b4 11b5 111a 1106 1107 1108 1121 1109 110a 110b 110c 110d 110e 110f 1110 1111",
      "1112"]⟩,
   ⟨0xffc2, 0xffc7, ["1161 1162 1163 1164 1165 1166"]⟩,
   ⟨0xffca, 0xffcf, ["1167 1168 1169 116a 116b 116c"]⟩,
   ⟨0xffd2, 0xffd7, ["116d 116e 116f 1170 1171 1172"]⟩, ⟨0xffda, 0xffdc, ["1173 1174 1175"]⟩,
   ⟨0xffe0, 0xffe6, ["a2 a3 ac 20.304 a6 a5 20a9"]⟩,
   ⟨0xffe8, 0xffee, ["2502 2190 2191 2192 2193 25a0 25cb"]⟩,
   ⟨0x10781, 0x10785, ["2d0 2d1 e6 299 253"]⟩,
   ⟨0x10787, 0x107b0, ["2a3 ab66 2a5 2a4 256 257 1d91 258 25e 2a9 264 262 260 29b 127 29c 267",
      "284 2aa 2ab 26c 1df04 a78e 26e 1df05 28e 1df06 f8 276 277 71 27a 1df08 27d 27e 280 2a8",
      "2a6 ab67 2a7 288 2c71"]⟩,
   ⟨0x107b2, 0x107ba, ["28f 2a1 2a2 298 1c0 1c1 1c2 1df0a 1df1e"]⟩,
   ⟨0x1109a, 0x1109a, ["11099.110ba"]⟩, ⟨0x1109c, 0x1109c, ["1109b.110ba"]⟩,
   ⟨0x110ab, 0x110ab, ["110a5.110ba"]⟩, ⟨0x1112e, 0x1112f, ["11131.11127 11132.11127"]⟩,
   ⟨0x1134b, 0x1134c, ["11347.1133e 11347.11357"]⟩,
   ⟨0x114bb, 0x114bc, ["114b9.114ba 114b9.114b0"]⟩, ⟨0x114be, 0x114be, ["114b9.114bd"]⟩,
   ⟨0x115ba, 0x115bb, ["115b8.115af 115b9.115af"]⟩, ⟨0x11938, 0x11938, ["11935.11930"]⟩,
   ⟨0x1d15e, 0x1d164, ["1d157.1d165 1d158.1d165 1d158.1d165.1d16e 1d158.1d165.1d16f",
      "1d158.1d165.1d170 1d158.1d165.1d171 1d158.1d165.1d172"]⟩,
   ⟨0x1d1bb, 0x1d1c0, ["1d1b9.1d165 1d1ba.1d165 1d1b9.1d165.1d16e 1d1ba.1d165.1d16e",
      "1d1b9.1d165.1d16f 1d1ba.1d165.1d16f"]⟩,
   ⟨0x1d400, 0x1d454, ["41 42 43 44 45 46 47 48 49 4a 4b 4c 4d 4e 4f 50 51 52 53 54 55 56 57",
      "58 59 5a 61 62 63 64 65 66 67 68 69 6a 6b 6c 6d 6e 6f 70 71 72 73 74 75 76 77 78 79 7a",
      "41 42 43 44 45 46 47 48 49 4a 4b 4c 4d 4e 4f 50 51 52 53 54 55 56 57 58 59 5a 61 62 63",
      "64 65 66 67"]⟩,
   ⟨0x1d456, 0x1d49c, ["69 6a 6b 6c 6d 6e 6f 70 71 72 73 74 75 76 77 78 79 7a 41 42 43 44 45",
      "46 47 48 49 4a 4b 4c 4d 4e 4f 50 51 52 53 54 55 56 57 58 59 5a 61 62 63 64 65 66 67 68",
      "69 6a 6b 6c 6d 6e 6f 70 71 72 73 74 75 76 77 78 79 7a 41"]⟩,
   ⟨0x1d49e, 0x1d49f, ["43 44"]⟩, ⟨0x1d4a2, 0x1d4a2, ["47"]⟩, ⟨0x1d4a5, 0x1d4a6, ["4a 4b"]⟩,
   ⟨0x1d4a9, 0x1d4ac, ["4e 4f 50 51"]⟩,
   ⟨0x1d4ae, 0x1d4b9, ["53 54 55 56 57 58 59 5a 61 62 63 64"]⟩, ⟨0x1d4bb, 0x1d4bb, ["66"]⟩,
   ⟨0x1d4bd, 0x1d4c3, ["68 69 6a 6b 6c 6d 6e"]⟩,
   ⟨0x1d4c5, 0x1d505, ["70 71 72 73 74 75 76 77 78 79 7a 41 42 43 44 45 46 47 48 49 4a 4b 4c",
      "4d 4e 4f 50 51 52 53 54 55 56 57 58 59 5a 61 62 63 64 65 66 67 68 69 6a 6b 6c 6d 6e 6f",
      "70 71 72 73 74 75 76 77 78 79 7a 41 42"]⟩,
   ⟨0x1d507, 0x1d50a, ["44 45 46 47"]⟩, ⟨0x1d50d, 0x1d514, ["4a 4b 4c 4d 4e 4f 50 51"]⟩,
   ⟨0x1d516, 0x1d51c, ["53 54 55 56 57 58 59"]⟩,
   ⟨0x1d51e, 0x1d539, ["61 62 63 64 65 66 67 68 69 6a 6b 6c 6d 6e 6f 70 71 72 73 74 75 76 77",
      "78 79 7a 41 42"]⟩,
   ⟨0x1d53b, 0x1d53e, ["44 45 46 47"]⟩, ⟨0x1d540, 0x1d544, ["49 4a 4b 4c 4d"]⟩,
   ⟨0x1d546, 0x1d546, ["4f"]⟩, ⟨0x1d54a, 0x1d550, ["53 54 55 56 57 58 59"]⟩,
   ⟨0x1d552, 0x1d6a5, ["61 62 63 64 65 66 67 68 69 6a 6b 6c 6d 6e 6f 70 71 72 73 74 75 76 77",
      "78 79 7a 41 42 43 44 45 46 47 48 49 4a 4b 4c 4d 4e 4f 50 51 52 53 54 55 56 57 58 59 5a",
      "61 62 63 64 65 66 67 68 69 6a 6b 6c 6d 6e 6f 70 71 72 73 74 75 76 77 78 79 7a 41 42 43",
      "44 45 46 47 48 49 4a 4b 4c 4d 4e 4f 50 51 52 53 54 55 56 57 58 59 5a 61 62 63 64 65 66",
      "67 68 69 6a 6b 6c 6d 6e 6f 70 71 72 73 74 75 76 77 78 79 7a 41 42 43 44 45 46 47 48 49",
      "4a 4b 4c 4d 4e 4f 50 51 52 53 54 55 56 57 58 59 5a 61 62 63 64 65 66 67 68 69 6a 6b 6c",
      "6d 6e 6f 70 71 72 73 74 75 76 77 78 79 7a 41 42 43 44 45 46 47 48 49 4a 4b 4c 4d 4e 4f",
      "50 51 52 53 54 55 56 57 58 59 5a 61 62 63 64 65 66 67 68 69 6a 6b 6c 6d 6e 6f 70 71 72",
      "73 74 75 76 77 78 79 7a 41 42 43 44 45 46 47 48 49 4a 4b 4c 4d 4e 4f 50 51 52 53 54 55",
      "56 57 58 59 5a 61 62 63 64 65 66 67 68 69 6a 6b 6c 6d 6e 6f 70 71 72 73 74 75 76 77 78",
      "79 7a 41 42 43 44 45 46 47 48 49 4a 4b 4c 4d 4e 4f 50 51 52 53 54 55 56 57 58 59 5a 61",
      "62 63 64 65 66 67 68 69 6a 6b 6c 6d 6e 6f 70 71 72 73 74 75 76 77 78 79 7a 131 237"]⟩,
   ⟨0x1d6a8, 0x1d7cb, ["391 392 393 394 395 396 397 398 399 39a 39b 39c 39d 39e 39f 3a0 3a1",
      "398 3a3 3a4 3a5 3a6 3a7 3a8 3a9 2207 3b1 3b2 3b3 3b4 3b5 3b6 3b7 3b8 3b9 3ba 3bb 3bc",
      "3bd 3be 3bf 3c0 3c1 3c2 3c3 3c4 3c5 3c6 3c7 3c8 3c9 2202 3b5 3b8 3ba 3c6 3c1 3c0 391",
      "392 393 394 395 396 397 398 399 39a 39b 39c 39d 39e 39f 3a0 3a1 398 3a3 3a4 3a5 3a6",
      "3a7 3a8 3a9 2207 3b1 3b2 3b3 3b4 3b5 3b6 3b7 3b8 3b9 3ba 3bb 3bc 3bd 3be 3bf 3c0 3c1",
      "3c2 3c3 3c4 3c5 3c6 3c7 3c8 3c9 2202 3b5 3b8 3ba 3c6 3c1 3c0 391 392 393 394 395 396",
      "397 398 399 39a 39b 39c 39d 39e 39f 3a0 3a1 398 3a3 3a4 3a5 3a6 3a7 3a8 3a9 2207 3b1",
      "3b2 3b3 3b4 3b5 3b6 3b7 3b8 3b9 3ba 3bb 3bc 3bd 3be 3bf 3c0 3c1 3c2 3c3 3c4 3c5 3c6",
      "3c7 3c8 3c9 2202 3b5 3b8 3ba 3c6 3c1 3c0 391 392 393 394 395 396 397 398 399 39a 39b",
      "39c 39d 39e 39f 3a0 3a1 398 3a3 3a4 3a5 3a6 3a7 3a8 3a9 2207 3b1 3b2 3b3 3b4 3b5 3b6",
      "3b7 3b8 3b9 3ba 3bb 3bc 3bd 3be 3bf 3c0 3c1 3c2 3c3 3c4 3c5 3c6 3c7 3c8 3c9 2202 3b5",
      "3b8 3ba 3c6 3c1 3c0 391 392 393 394 395 396 397 398 399 39a 39b 39c 39d 39e 39f 3a0",
      "3a1 398 3a3 3a4 3a5 3a6 3a7 3a8 3a9 2207 3b1 3b2 3b3 3b4 3b5 3b6 3b7 3b8 3b9 3ba 3bb",
      "3bc 3bd 3be 3bf 3c0 3c1 3c2 3c3 3c4 3c5 3c6 3c7 3c8 3c9 2202 3b5 3b8 3ba 3c6 3c1 3c0",
      "3dc 3dd"]⟩,
   ⟨0x1d7ce, 0x1d7ff, ["30 31 32 33 34 35 36 37 38 39 30 31 32 33 34 35 36 37 38 39 30 31 32",
      "33 34 35 36 37 38 39 30 31 32 33 34 35 36 37 38 39 30 31 32 33 34 35 36 37 38 39"]⟩,
   ⟨0x1ee00, 0x1ee03, ["627 628 62c 62f"]⟩,
   ⟨0x1ee05, 0x1ee1f, ["648 632 62d 637 64a 643 644 645 646 633 639 641 635 642 631 634 62a",
      "62b 62e 630 636 638 63a 66e 6ba 6a1 66f"]⟩,
   ⟨0x1ee21, 0x1ee22, ["628 62c"]⟩, ⟨0x1ee24, 0x1ee24, ["647"]⟩, ⟨0x1ee27, 0x1ee27, ["62d"]⟩,
   ⟨0x1ee29, 0x1ee32, ["64a 643 644 645 646 633 639 641 635 642"]⟩,
   ⟨0x1ee34, 0x1ee37, ["634 62a 62b 62e"]⟩, ⟨0x1ee39, 0x1ee39, ["636"]⟩,
   ⟨0x1ee3b, 0x1ee3b, ["63a"]⟩, ⟨0x1ee42, 0x1ee42, ["62c"]⟩, ⟨0x1ee47, 0x1ee47, ["62d"]⟩,
   ⟨0x1ee49, 0x1ee49, ["64a"]⟩, ⟨0x1ee4b, 0x1ee4b, ["644"]⟩, ⟨0x1ee4d, 0x1ee4f, ["646 633 639"]⟩,
   ⟨0x1ee51, 0x1ee52, ["635 642"]⟩, ⟨0x1ee54, 0x1ee54, ["634"]⟩, ⟨0x1ee57, 0x1ee57, ["62e"]⟩,
   ⟨0x1ee59, 0x1ee59, ["636"]⟩, ⟨0x1ee5b, 0x1ee5b, ["63a"]⟩, ⟨0x1ee5d, 0x1ee5d, ["6ba"]⟩,
   ⟨0x1ee5f, 0x1ee5f, ["66f"]⟩, ⟨0x1ee61, 0x1ee62, ["628 62c"]⟩, ⟨0x1ee64, 0x1ee64, ["647"]⟩,
   ⟨0x1ee67, 0x1ee6a, ["62d 637 64a 643"]⟩, ⟨0x1ee6c, 0x1ee72, ["645 646 633 639 641 635 642"]⟩,
   ⟨0x1ee74, 0x1ee77, ["634 62a 62b 62e"]⟩, ⟨0x1ee79, 0x1ee7c, ["636 638 63a 66e"]⟩,
   ⟨0x1ee7e, 0x1ee7e, ["6a1"]⟩, ⟨0x1ee80, 0x1ee89, ["627 628 62c 62f 647 648 632 62d 637 64a"]⟩,
   ⟨0x1ee8b, 0x1ee9b, ["644 645 646 633 639 641 635 642 631 634 62a 62b 62e 630 636 638 63a"]⟩,
   ⟨0x1eea1, 0x1eea3, ["628 62c 62f"]⟩, ⟨0x1eea5, 0x1eea9, ["648 632 62d 637 64a"]⟩,
   ⟨0x1eeab, 0x1eebb, ["644 645 646 633 639 641 635 642 631 634 62a 62b 62e 630 636 638 63a"]⟩,
   ⟨0x1f100, 0x1f10a, ["30.2e 30.2c 31.2c 32.2c 33.2c 34.2c 35.2c 36.2c 37.2c 38.2c 39.2c"]⟩,
   ⟨0x1f110, 0x1f12e, ["28.41.29 28.42.29 28.43.29 28.44.29 28.45.29 28.46.29 28.47.29",
      "28.48.29 28.49.29 28.4a.29 28.4b.29 28.4c.29 28.4d.29 28.4e.29 28.4f.29 28.50.29",
      "28.51.29 28.52.29 28.53.29 28.54.29 28.55.29 28.56.29 28.57.29 28.58.29 28.59.29",
      "28.5a.29 3014.53.3015 43 52 43.44 57.5a"]⟩,
   ⟨0x1f130, 0x1f14f, ["41 42 43 44 45 46 47 48 49 4a 4b 4c 4d 4e 4f 50 51 52 53 54 55 56 57",
      "58 59 5a 48.56 4d.56 53.44 53.53 50.50.56 57.43"]⟩,
   ⟨0x1f16a, 0x1f16c, ["4d.43 4d.44 4d.52"]⟩, ⟨0x1f190, 0x1f190, ["44.4a"]⟩,
   ⟨0x1f200, 0x1f202, ["307b.304b 30b3.30b3 30b5"]⟩,
   ⟨0x1f210, 0x1f23b, ["624b 5b57 53cc 30c6.3099 4e8c 591a 89e3 5929 4ea4 6620 7121 6599 524d",
      "5f8c 518d 65b0 521d 7d42 751f 8ca9 58f0 5439 6f14 6295 6355 4e00 4e09 904a 5de6 4e2d",
      "53f3 6307 8d70 6253 7981 7a7a 5408 6e80 6709 6708 7533 5272 55b6 914d"]⟩,
   ⟨0x1f240, 0x1f248, ["3014.672c.3015 3014.4e09.3015 3014.4e8c.3015 3014.5b89.3015",
      "3014.70b9.3015 3014.6253.3015 3014.76d7.3015 3014.52dd.3015 3014.6557.3015"]⟩,
   ⟨0x1f250, 0x1f251, ["5f97 53ef"]⟩, ⟨0x1fbf0, 0x1fbf9, ["30 31 32 33 34 35 36 37 38 39"]⟩,
   ⟨0x2f800, 0x2fa1d, ["4e3d 4e38 4e41 20122 4f60 4fae 4fbb 5002 507a 5099 50e7 50cf 349e",
      "2063a 514d 5154 5164 5177 2051c 34b9 5167 518d 2054b 5197 51a4 4ecc 51ac 51b5 291df",
      "51f5 5203 34df 523b 5246 5272 5277 3515 52c7 52c9 52e4 52fa 5305 5306 5317 5349 5351",
      "535a 5373 537d 537f 537f 537f 20a2c 7070 53ca 53df 20b63 53eb 53f1 5406 549e 5438 5448",
      "5468 54a2 54f6 5510 5553 5563 5584 5584 5599 55ab 55b3 55c2 5716 5606 5717 5651 5674",
      "5207 58ee 57ce 57f4 580d 578b 5832 5831 58ac 214e4 58f2 58f7 5906 591a 5922 5962 216a8",
      "216ea 59ec 5a1b 5a27 59d8 5a66 36ee 36fc 5b08 5b3e 5b3e 219c8 5bc3 5bd8 5be7 5bf3",
      "21b18 5bff 5c06 5f53 5c22 3781 5c60 5c6e 5cc0 5c8d 21de4 5d43 21de6 5d6e 5d6b 5d7c",
      "5de1 5de2 382f 5dfd 5e28 5e3d 5e69 3862 22183 387c 5eb0 5eb3 5eb6 5eca 2a392 5efe",
      "22331 22331 8201 5f22 5f22 38c7 232b8 261da 5f62 5f6b 38e3 5f9a 5fcd 5fd7 5ff9 6081",
      "393a 391c 6094 226d4 60c7 6148 614c 614e 614c 617a 618e 61b2 61a4 61af 61de 61f2 61f6",
      "6210 621b 625d 62b1 62d4 6350 22b0c 633d 62fc 6368 6383 63e4 22bf1 6422 63c5 63a9 3a2e",
      "6469 647e 649d 6477 3a6c 654f 656c 2300a 65e3 66f8 6649 3b19 6691 3b08 3ae4 5192 5195",
      "6700 669c 80ad 43d9 6717 671b 6721 675e 6753 233c3 3b49 67fa 6785 6852 6885 2346d 688e",
      "681f 6914 3b9d 6942 69a3 69ea 6aa8 236a3 6adb 3c18 6b21 238a7 6b54 3c4e 6b72 6b9f 6bba",
      "6bbb 23a8d 21d0b 23afa 6c4e 23cbc 6cbf 6ccd 6c67 6d16 6d3e 6d77 6d41 6d69 6d78 6d85",
      "23d1e 6d34 6e2f 6e6e 3d33 6ecb 6ec7 23ed1 6df9 6f6e 23f5e 23f8e 6fc6 7039 701e 701b",
      "3d96 704a 707d 7077 70ad 20525 7145 24263 719c 243ab 7228 7235 7250 24608 7280 7295",
      "24735 24814 737a 738b 3eac 73a5 3eb8 3eb8 7447 745c 7471 7485 74ca 3f1b 7524 24c36",
      "753e 24c92 7570 2219f 7610 24fa1 24fb8 25044 3ffc 4008 76f4 250f3 250f2 25119 25133",
      "771e 771f 771f 774a 4039 778b 4046 4096 2541d 784e 788c 78cc 40e3 25626 7956 2569a",
      "256c5 798f 79eb 412f 7a40 7a4a 7a4f 2597c 25aa7 25aa7 7aee 4202 25bab 7bc6 7bc9 4227",
      "25c80 7cd2 42a0 7ce8 7ce3 7d00 25f86 7d63 4301 7dc7 7e02 7e45 4334 26228 26247 4359",
      "262d9 7f7a 2633e 7f95 7ffa 8005 264da 26523 8060 265a8 8070 2335f 43d5 80b2 8103 440b",
      "813e 5ab5 267a7 267b5 23393 2339c 8201 8204 8f9e 446b 8291 828b 829d 52b3 82b1 82b3",
      "82bd 82e6 26b3c 82e5 831d 8363 83ad 8323 83bd 83e7 8457 8353 83ca 83cc 83dc 26c36",
      "26d6b 26cd5 452b 84f1 84f3 8516 273ca 8564 26f2c 455d 4561 26fb1 270d2 456b 8650 865c",
      "8667 8669 86a9 8688 870e 86e2 8779 8728 876b 8786 45d7 87e1 8801 45f9 8860 8863 27667",
      "88d7 88de 4635 88fa 34bb 278ae 27966 46be 46c7 8aa0 8aed 8b8a 8c55 27ca8 8cab 8cc1",
      "8d1b 8d77 27f2f 20804 8dcb 8dbc 8df0 208de 8ed4 8f38 285d2 285ed 9094 90f1 9111 2872e",
      "911b 9238 92d7 92d8 927c 93f9 9415 28bfa 958b 4995 95b7 28d77 49e6 96c3 5db2 9723",
      "29145 2921a 4a6e 4a76 97e0 2940a 4ab2 29496 980b 980b 9829 295b6 98e2 4b33 9929 99a7",
      "99c2 99fe 4bce 29b30 9b12 9c40 9cfd 4cce 4ced 9d67 2a0ce 4cf8 2a105 2a20e 2a291 9ebb",
      "4d56 9ef9 9efe 9f05 9f0f 9f16 9f3b 2a600"]⟩]

end CallTrace.Unicode
