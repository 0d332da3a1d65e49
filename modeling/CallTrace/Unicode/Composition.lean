import CallTrace.Unicode.Block

/-!
# Canonical compositions

The pairs that compose into one code point.  A block belongs to the first of
the two; an entry gives the second and the composite.
-/

namespace CallTrace.Unicode

/-- What each code point composes into, by the code point that follows it. -/
def compositions : List Block :=
  [⟨0x3c, 0x3c, ["338.226e"]⟩, ⟨0x3d, 0x3d, ["338.2260"]⟩, ⟨0x3e, 0x3e, ["338.226f"]⟩,
   ⟨0x41, 0x41, ["300.c0 301.c1 302.c2 303.c3 304.100 306.102 307.226 308.c4 309.1ea2 30a.c5",
      "30c.1cd 30f.200 311.202 323.1ea0 325.1e00 328.104"]⟩,
   ⟨0x42, 0x42, ["307.1e02 323.1e04 331.1e06"]⟩,
   ⟨0x43, 0x43, ["301.106 302.108 307.10a 30c.10c 327.c7"]⟩,
   ⟨0x44, 0x44, ["307.1e0a 30c.10e 323.1e0c 327.1e10 32d.1e12 331.1e0e"]⟩,
   ⟨0x45, 0x45, ["300.c8 301.c9 302.ca 303.1ebc 304.112 306.114 307.116 308.cb 309.1eba",
      "30c.11a 30f.204 311.206 323.1eb8 327.228 328.118 32d.1e18 330.1e1a"]⟩,
   ⟨0x46, 0x46, ["307.1e1e"]⟩,
   ⟨0x47, 0x47, ["301.1f4 302.11c 304.1e20 306.11e 307.120 30c.1e6 327.122"]⟩,
   ⟨0x48, 0x48, ["302.124 307.1e22 308.1e26 30c.21e 323.1e24 327.1e28 32e.1e2a"]⟩,
   ⟨0x49, 0x49, ["300.cc 301.cd 302.ce 303.128 304.12a 306.12c 307.130 308.cf 309.1ec8",
      "30c.1cf 30f.208 311.20a 323.1eca 328.12e 330.1e2c"]⟩,
   ⟨0x4a, 0x4a, ["302.134"]⟩, ⟨0x4b, 0x4b, ["301.1e30 30c.1e8 323.1e32 327.136 331.1e34"]⟩,
   ⟨0x4c, 0x4c, ["301.139 30c.13d 323.1e36 327.13b 32d.1e3c 331.1e3a"]⟩,
   ⟨0x4d, 0x4d, ["301.1e3e 307.1e40 323.1e42"]⟩,
   ⟨0x4e, 0x4e, ["300.1f8 301.143 303.d1 307.1e44 30c.147 323.1e46 327.145 32d.1e4a 331.1e48"]⟩,
   ⟨0x4f, 0x4f, ["300.d2 301.d3 302.d4 303.d5 304.14c 306.14e 307.22e 308.d6 309.1ece 30b.150",
      "30c.1d1 30f.20c 311.20e 31b.1a0 323.1ecc 328.1ea"]⟩,
   ⟨0x50, 0x50, ["301.1e54 307.1e56"]⟩,
   ⟨0x52, 0x52, ["301.154 307.1e58 30c.158 30f.210 311.212 323.1e5a 327.156 331.1e5e"]⟩,
   ⟨0x53, 0x53, ["301.15a 302.15c 307.1e60 30c.160 323.1e62 326.218 327.15e"]⟩,
   ⟨0x54, 0x54, ["307.1e6a 30c.164 323.1e6c 326.21a 327.162 32d.1e70 331.1e6e"]⟩,
   ⟨0x55, 0x55, ["300.d9 301.da 302.db 303.168 304.16a 306.16c 308.dc 309.1ee6 30a.16e",
      "30b.170 30c.1d3 30f.214 311.216 31b.1af 323.1ee4 324.1e72 328.172 32d.1e76 330.1e74"]⟩,
   ⟨0x56, 0x56, ["303.1e7c 323.1e7e"]⟩,
   ⟨0x57, 0x57, ["300.1e80 301.1e82 302.174 307.1e86 308.1e84 323.1e88"]⟩,
   ⟨0x58, 0x58, ["307.1e8a 308.1e8c"]⟩,
   ⟨0x59, 0x59, ["300.1ef2 301.dd 302.176 303.1ef8 304.232 307.1e8e 308.178 309.1ef6 323.1ef4"]⟩,
   ⟨0x5a, 0x5a, ["301.179 302.1e90 307.17b 30c.17d 323.1e92 331.1e94"]⟩,
   ⟨0x61, 0x61, ["300.e0 301.e1 302.e2 303.e3 304.101 306.103 307.227 308.e4 309.1ea3 30a.e5",
      "30c.1ce 30f.201 311.203 323.1ea1 325.1e01 328.105"]⟩,
   ⟨0x62, 0x62, ["307.1e03 323.1e05 331.1e07"]⟩,
   ⟨0x63, 0x63, ["301.107 302.109 307.10b 30c.10d 327.e7"]⟩,
   ⟨0x64, 0x64, ["307.1e0b 30c.10f 323.1e0d 327.1e11 32d.1e13 331.1e0f"]⟩,
   ⟨0x65, 0x65, ["300.e8 301.e9 302.ea 303.1ebd 304.113 306.115 307.117 308.eb 309.1ebb",
      "30c.11b 30f.205 311.207 323.1eb9 327.229 328.119 32d.1e19 330.1e1b"]⟩,
   ⟨0x66, 0x66, ["307.1e1f"]⟩,
   ⟨0x67, 0x67, ["301.1f5 302.11d 304.1e21 306.11f 307.121 30c.1e7 327.123"]⟩,
   ⟨0x68, 0x68, ["302.125 307.1e23 308.1e27 30c.21f 323.1e25 327.1e29 32e.1e2b 331.1e96"]⟩,
   ⟨0x69, 0x69, ["300.ec 301.ed 302.ee 303.129 304.12b 306.12d 308.ef 309.1ec9 30c.1d0",
      "30f.209 311.20b 323.1ecb 328.12f 330.1e2d"]⟩,
   ⟨0x6a, 0x6a, ["302.135 30c.1f0"]⟩,
   ⟨0x6b, 0x6b, ["301.1e31 30c.1e9 323.1e33 327.137 331.1e35"]⟩,
   ⟨0x6c, 0x6c, ["301.13a 30c.13e 323.1e37 327.13c 32d.1e3d 331.1e3b"]⟩,
   ⟨0x6d, 0x6d, ["301.1e3f 307.1e41 323.1e43"]⟩,
   ⟨0x6e, 0x6e, ["300.1f9 301.144 303.f1 307.1e45 30c.148 323.1e47 327.146 32d.1e4b 331.1e49"]⟩,
   ⟨0x6f, 0x6f, ["300.f2 301.f3 302.f4 303.f5 304.14d 306.14f 307.22f 308.f6 309.1ecf 30b.151",
      "30c.1d2 30f.20d 311.20f 31b.1a1 323.1ecd 328.1eb"]⟩,
   ⟨0x70, 0x70, ["301.1e55 307.1e57"]⟩,
   ⟨0x72, 0x72, ["301.155 307.1e59 30c.159 30f.211 311.213 323.1e5b 327.157 331.1e5f"]⟩,
   ⟨0x73, 0x73, ["301.15b 302.15d 307.1e61 30c.161 323.1e63 326.219 327.15f"]⟩,
   ⟨0x74, 0x74, ["307.1e6b 308.1e97 30c.165 323.1e6d 326.21b 327.163 32d.1e71 331.1e6f"]⟩,
   ⟨0x75, 0x75, ["300.f9 301.fa 302.fb 303.169 304.16b 306.16d 308.fc 309.1ee7 30a.16f",
      "30b.171 30c.1d4 30f.215 311.217 31b.1b0 323.1ee5 324.1e73 328.173 32d.1e77 330.1e75"]⟩,
   ⟨0x76, 0x76, ["303.1e7d 323.1e7f"]⟩,
   ⟨0x77, 0x77, ["300.1e81 301.1e83 302.175 307.1e87 308.1e85 30a.1e98 323.1e89"]⟩,
   ⟨0x78, 0x78, ["307.1e8b 308.1e8d"]⟩,
   ⟨0x79, 0x79, ["300.1ef3 301.fd 302.177 303.1ef9 304.233 307.1e8f 308.ff 309.1ef7 30a.1e99",
      "323.1ef5"]⟩,
   ⟨0x7a, 0x7a, ["301.17a 302.1e91 307.17c 30c.17e 323.1e93 331.1e95"]⟩,
   ⟨0xa8, 0xa8, ["300.1fed 301.385 342.1fc1"]⟩,
   ⟨0xc2, 0xc2, ["300.1ea6 301.1ea4 303.1eaa 309.1ea8"]⟩, ⟨0xc4, 0xc4, ["304.1de"]⟩,
   ⟨0xc5, 0xc5, ["301.1fa"]⟩, ⟨0xc6, 0xc6, ["301.1fc 304.1e2"]⟩, ⟨0xc7, 0xc7, ["301.1e08"]⟩,
   ⟨0xca, 0xca, ["300.1ec0 301.1ebe 303.1ec4 309.1ec2"]⟩, ⟨0xcf, 0xcf, ["301.1e2e"]⟩,
   ⟨0xd4, 0xd4, ["300.1ed2 301.1ed0 303.1ed6 309.1ed4"]⟩,
   ⟨0xd5, 0xd5, ["301.1e4c 304.22c 308.1e4e"]⟩, ⟨0xd6, 0xd6, ["304.22a"]⟩,
   ⟨0xd8, 0xd8, ["301.1fe"]⟩, ⟨0xdc, 0xdc, ["300.1db 301.1d7 304.1d5 30c.1d9"]⟩,
   ⟨0xe2, 0xe2, ["300.1ea7 301.1ea5 303.1eab 309.1ea9"]⟩, ⟨0xe4, 0xe4, ["304.1df"]⟩,
   ⟨0xe5, 0xe5, ["301.1fb"]⟩, ⟨0xe6, 0xe6, ["301.1fd 304.1e3"]⟩, ⟨0xe7, 0xe7, ["301.1e09"]⟩,
   ⟨0xea, 0xea, ["300.1ec1 301.1ebf 303.1ec5 309.1ec3"]⟩, ⟨0xef, 0xef, ["301.1e2f"]⟩,
   ⟨0xf4, 0xf4, ["300.1ed3 301.1ed1 303.1ed7 309.1ed5"]⟩,
   ⟨0xf5, 0xf5, ["301.1e4d 304.22d 308.1e4f"]⟩, ⟨0xf6, 0xf6, ["304.22b"]⟩,
   ⟨0xf8, 0xf8, ["301.1ff"]⟩, ⟨0xfc, 0xfc, ["300.1dc 301.1d8 304.1d6 30c.1da"]⟩,
   ⟨0x102, 0x102, ["300.1eb0 301.1eae 303.1eb4 309.1eb2"]⟩,
   ⟨0x103, 0x103, ["300.1eb1 301.1eaf 303.1eb5 309.1eb3"]⟩, ⟨0x112, 0x112, ["300.1e14 301.1e16"]⟩,
   ⟨0x113, 0x113, ["300.1e15 301.1e17"]⟩, ⟨0x14c, 0x14c, ["300.1e50 301.1e52"]⟩,
   ⟨0x14d, 0x14d, ["300.1e51 301.1e53"]⟩, ⟨0x15a, 0x15a, ["307.1e64"]⟩,
   ⟨0x15b, 0x15b, ["307.1e65"]⟩, ⟨0x160, 0x160, ["307.1e66"]⟩, ⟨0x161, 0x161, ["307.1e67"]⟩,
   ⟨0x168, 0x168, ["301.1e78"]⟩, ⟨0x169, 0x169, ["301.1e79"]⟩, ⟨0x16a, 0x16a, ["308.1e7a"]⟩,
   ⟨0x16b, 0x16b, ["308.1e7b"]⟩, ⟨0x17f, 0x17f, ["307.1e9b"]⟩,
   ⟨0x1a0, 0x1a0, ["300.1edc 301.1eda 303.1ee0 309.1ede 323.1ee2"]⟩,
   ⟨0x1a1, 0x1a1, ["300.1edd 301.1edb 303.1ee1 309.1edf 323.1ee3"]⟩,
   ⟨0x1af, 0x1af, ["300.1eea 301.1ee8 303.1eee 309.1eec 323.1ef0"]⟩,
   ⟨0x1b0, 0x1b0, ["300.1eeb 301.1ee9 303.1eef 309.1eed 323.1ef1"]⟩, ⟨0x1b7, 0x1b7, ["30c.1ee"]⟩,
   ⟨0x1ea, 0x1ea, ["304.1ec"]⟩, ⟨0x1eb, 0x1eb, ["304.1ed"]⟩, ⟨0x226, 0x226, ["304.1e0"]⟩,
   ⟨0x227, 0x227, ["304.1e1"]⟩, ⟨0x228, 0x228, ["306.1e1c"]⟩, ⟨0x229, 0x229, ["306.1e1d"]⟩,
   ⟨0x22e, 0x22e, ["304.230"]⟩, ⟨0x22f, 0x22f, ["304.231"]⟩, ⟨0x292, 0x292, ["30c.1ef"]⟩,
   ⟨0x391, 0x391, ["300.1fba 301.386 304.1fb9 306.1fb8 313.1f08 314.1f09 345.1fbc"]⟩,
   ⟨0x395, 0x395, ["300.1fc8 301.388 313.1f18 314.1f19"]⟩,
   ⟨0x397, 0x397, ["300.1fca 301.389 313.1f28 314.1f29 345.1fcc"]⟩,
   ⟨0x399, 0x399, ["300.1fda 301.38a 304.1fd9 306.1fd8 308.3aa 313.1f38 314.1f39"]⟩,
   ⟨0x39f, 0x39f, ["300.1ff8 301.38c 313.1f48 314.1f49"]⟩, ⟨0x3a1, 0x3a1, ["314.1fec"]⟩,
   ⟨0x3a5, 0x3a5, ["300.1fea 301.38e 304.1fe9 306.1fe8 308.3ab 314.1f59"]⟩,
   ⟨0x3a9, 0x3a9, ["300.1ffa 301.38f 313.1f68 314.1f69 345.1ffc"]⟩, ⟨0x3ac, 0x3ac, ["345.1fb4"]⟩,
   ⟨0x3ae, 0x3ae, ["345.1fc4"]⟩,
   ⟨0x3b1, 0x3b1, ["300.1f70 301.3ac 304.1fb1 306.1fb0 313.1f00 314.1f01 342.1fb6 345.1fb3"]⟩,
   ⟨0x3b5, 0x3b5, ["300.1f72 301.3ad 313.1f10 314.1f11"]⟩,
   ⟨0x3b7, 0x3b7, ["300.1f74 301.3ae 313.1f20 314.1f21 342.1fc6 345.1fc3"]⟩,
   ⟨0x3b9, 0x3b9, ["300.1f76 301.3af 304.1fd1 306.1fd0 308.3ca 313.1f30 314.1f31 342.1fd6"]⟩,
   ⟨0x3bf, 0x3bf, ["300.1f78 301.3cc 313.1f40 314.1f41"]⟩, ⟨0x3c1, 0x3c1, ["313.1fe4 314.1fe5"]⟩,
   ⟨0x3c5, 0x3c5, ["300.1f7a 301.3cd 304.1fe1 306.1fe0 308.3cb 313.1f50 314.1f51 342.1fe6"]⟩,
   ⟨0x3c9, 0x3c9, ["300.1f7c 301.3ce 313.1f60 314.1f61 342.1ff6 345.1ff3"]⟩,
   ⟨0x3ca, 0x3ca, ["300.1fd2 301.390 342.1fd7"]⟩, ⟨0x3cb, 0x3cb, ["300.1fe2 301.3b0 342.1fe7"]⟩,
   ⟨0x3ce, 0x3ce, ["345.1ff4"]⟩, ⟨0x3d2, 0x3d2, ["301.3d3 308.3d4"]⟩, ⟨0x406, 0x406, ["308.407"]⟩,
   ⟨0x410, 0x410, ["306.4d0 308.4d2"]⟩, ⟨0x413, 0x413, ["301.403"]⟩,
   ⟨0x415, 0x415, ["300.400 306.4d6 308.401"]⟩, ⟨0x416, 0x416, ["306.4c1 308.4dc"]⟩,
   ⟨0x417, 0x417, ["308.4de"]⟩, ⟨0x418, 0x418, ["300.40d 304.4e2 306.419 308.4e4"]⟩,
   ⟨0x41a, 0x41a, ["301.40c"]⟩, ⟨0x41e, 0x41e, ["308.4e6"]⟩,
   ⟨0x423, 0x423, ["304.4ee 306.40e 308.4f0 30b.4f2"]⟩, ⟨0x427, 0x427, ["308.4f4"]⟩,
   ⟨0x42b, 0x42b, ["308.4f8"]⟩, ⟨0x42d, 0x42d, ["308.4ec"]⟩, ⟨0x430, 0x430, ["306.4d1 308.4d3"]⟩,
   ⟨0x433, 0x433, ["301.453"]⟩, ⟨0x435, 0x435, ["300.450 306.4d7 308.451"]⟩,
   ⟨0x436, 0x436, ["306.4c2 308.4dd"]⟩, ⟨0x437, 0x437, ["308.4df"]⟩,
   ⟨0x438, 0x438, ["300.45d 304.4e3 306.439 308.4e5"]⟩, ⟨0x43a, 0x43a, ["301.45c"]⟩,
   ⟨0x43e, 0x43e, ["308.4e7"]⟩, ⟨0x443, 0x443, ["304.4ef 306.45e 308.4f1 30b.4f3"]⟩,
   ⟨0x447, 0x447, ["308.4f5"]⟩, ⟨0x44b, 0x44b, ["308.4f9"]⟩, ⟨0x44d, 0x44d, ["308.4ed"]⟩,
   ⟨0x456, 0x456, ["308.457"]⟩, ⟨0x474, 0x474, ["30f.476"]⟩, ⟨0x475, 0x475, ["30f.477"]⟩,
   ⟨0x4d8, 0x4d8, ["308.4da"]⟩, ⟨0x4d9, 0x4d9, ["308.4db"]⟩, ⟨0x4e8, 0x4e8, ["308.4ea"]⟩,
   ⟨0x4e9, 0x4e9, ["308.4eb"]⟩, ⟨0x627, 0x627, ["653.622 654.623 655.625"]⟩,
   ⟨0x648, 0x648, ["654.624"]⟩, ⟨0x64a, 0x64a, ["654.626"]⟩, ⟨0x6c1, 0x6c1, ["654.6c2"]⟩,
   ⟨0x6d2, 0x6d2, ["654.6d3"]⟩, ⟨0x6d5, 0x6d5, ["654.6c0"]⟩, ⟨0x928, 0x928, ["93c.929"]⟩,
   ⟨0x930, 0x930, ["93c.931"]⟩, ⟨0x933, 0x933, ["93c.934"]⟩, ⟨0x9c7, 0x9c7, ["9be.9cb 9d7.9cc"]⟩,
   ⟨0xb47, 0xb47, ["b3e.b4b b56.b48 b57.b4c"]⟩, ⟨0xb92, 0xb92, ["bd7.b94"]⟩,
   ⟨0xbc6, 0xbc6, ["bbe.bca bd7.bcc"]⟩, ⟨0xbc7, 0xbc7, ["bbe.bcb"]⟩, ⟨0xc46, 0xc46, ["c56.c48"]⟩,
   ⟨0xcbf, 0xcbf, ["cd5.cc0"]⟩, ⟨0xcc6, 0xcc6, ["cc2.cca cd5.cc7 cd6.cc8"]⟩,
   ⟨0xcca, 0xcca, ["cd5.ccb"]⟩, ⟨0xd46, 0xd46, ["d3e.d4a d57.d4c"]⟩, ⟨0xd47, 0xd47, ["d3e.d4b"]⟩,
   ⟨0xdd9, 0xdd9, ["dca.dda dcf.ddc ddf.dde"]⟩, ⟨0xddc, 0xddc, ["dca.ddd"]⟩,
   ⟨0x1025, 0x1025, ["102e.1026"]⟩, ⟨0x1b05, 0x1b05, ["1b35.1b06"]⟩,
   ⟨0x1b07, 0x1b07, ["1b35.1b08"]⟩, ⟨0x1b09, 0x1b09, ["1b35.1b0a"]⟩,
   ⟨0x1b0b, 0x1b0b, ["1b35.1b0c"]⟩, ⟨0x1b0d, 0x1b0d, ["1b35.1b0e"]⟩,
   ⟨0x1b11, 0x1b11, ["1b35.1b12"]⟩, ⟨0x1b3a, 0x1b3a, ["1b35.1b3b"]⟩,
   ⟨0x1b3c, 0x1b3c, ["1b35.1b3d"]⟩, ⟨0x1b3e, 0x1b3e, ["1b35.1b40"]⟩,
   ⟨0x1b3f, 0x1b3f, ["1b35.1b41"]⟩, ⟨0x1b42, 0x1b42, ["1b35.1b43"]⟩,
   ⟨0x1e36, 0x1e36, ["304.1e38"]⟩, ⟨0x1e37, 0x1e37, ["304.1e39"]⟩, ⟨0x1e5a, 0x1e5a, ["304.1e5c"]⟩,
   ⟨0x1e5b, 0x1e5b, ["304.1e5d"]⟩, ⟨0x1e62, 0x1e62, ["307.1e68"]⟩, ⟨0x1e63, 0x1e63, ["307.1e69"]⟩,
   ⟨0x1ea0, 0x1ea0, ["302.1eac 306.1eb6"]⟩, ⟨0x1ea1, 0x1ea1, ["302.1ead 306.1eb7"]⟩,
   ⟨0x1eb8, 0x1eb8, ["302.1ec6"]⟩, ⟨0x1eb9, 0x1eb9, ["302.1ec7"]⟩, ⟨0x1ecc, 0x1ecc, ["302.1ed8"]⟩,
   ⟨0x1ecd, 0x1ecd, ["302.1ed9"]⟩, ⟨0x1f00, 0x1f00, ["300.1f02 301.1f04 342.1f06 345.1f80"]⟩,
   ⟨0x1f01, 0x1f01, ["300.1f03 301.1f05 342.1f07 345.1f81"]⟩, ⟨0x1f02, 0x1f02, ["345.1f82"]⟩,
   ⟨0x1f03, 0x1f03, ["345.1f83"]⟩, ⟨0x1f04, 0x1f04, ["345.1f84"]⟩, ⟨0x1f05, 0x1f05, ["345.1f85"]⟩,
   ⟨0x1f06, 0x1f06, ["345.1f86"]⟩, ⟨0x1f07, 0x1f07, ["345.1f87"]⟩,
   ⟨0x1f08, 0x1f08, ["300.1f0a 301.1f0c 342.1f0e 345.1f88"]⟩,
   ⟨0x1f09, 0x1f09, ["300.1f0b 301.1f0d 342.1f0f 345.1f89"]⟩, ⟨0x1f0a, 0x1f0a, ["345.1f8a"]⟩,
   ⟨0x1f0b, 0x1f0b, ["345.1f8b"]⟩, ⟨0x1f0c, 0x1f0c, ["345.1f8c"]⟩, ⟨0x1f0d, 0x1f0d, ["345.1f8d"]⟩,
   ⟨0x1f0e, 0x1f0e, ["345.1f8e"]⟩, ⟨0x1f0f, 0x1f0f, ["345.1f8f"]⟩,
   ⟨0x1f10, 0x1f10, ["300.1f12 301.1f14"]⟩, ⟨0x1f11, 0x1f11, ["300.1f13 301.1f15"]⟩,
   ⟨0x1f18, 0x1f18, ["300.1f1a 301.1f1c"]⟩, ⟨0x1f19, 0x1f19, ["300.1f1b 301.1f1d"]⟩,
   ⟨0x1f20, 0x1f20, ["300.1f22 301.1f24 342.1f26 345.1f90"]⟩,
   ⟨0x1f21, 0x1f21, ["300.1f23 301.1f25 342.1f27 345.1f91"]⟩, ⟨0x1f22, 0x1f22, ["345.1f92"]⟩,
   ⟨0x1f23, 0x1f23, ["345.1f93"]⟩, ⟨0x1f24, 0x1f24, ["345.1f94"]⟩, ⟨0x1f25, 0x1f25, ["345.1f95"]⟩,
   ⟨0x1f26, 0x1f26, ["345.1f96"]⟩, ⟨0x1f27, 0x1f27, ["345.1f97"]⟩,
   ⟨0x1f28, 0x1f28, ["300.1f2a 301.1f2c 342.1f2e 345.1f98"]⟩,
   ⟨0x1f29, 0x1f29, ["300.1f2b 301.1f2d 342.1f2f 345.1f99"]⟩, ⟨0x1f2a, 0x1f2a, ["345.1f9a"]⟩,
   ⟨0x1f2b, 0x1f2b, ["345.1f9b"]⟩, ⟨0x1f2c, 0x1f2c, ["345.1f9c"]⟩, ⟨0x1f2d, 0x1f2d, ["345.1f9d"]⟩,
   ⟨0x1f2e, 0x1f2e, ["345.1f9e"]⟩, ⟨0x1f2f, 0x1f2f, ["345.1f9f"]⟩,
   ⟨0x1f30, 0x1f30, ["300.1f32 301.1f34 342.1f36"]⟩,
   ⟨0x1f31, 0x1f31, ["300.1f33 301.1f35 342.1f37"]⟩,
   ⟨0x1f38, 0x1f38, ["300.1f3a 301.1f3c 342.1f3e"]⟩,
   ⟨0x1f39, 0x1f39, ["300.1f3b 301.1f3d 342.1f3f"]⟩, ⟨0x1f40, 0x1f40, ["300.1f42 301.1f44"]⟩,
   ⟨0x1f41, 0x1f41, ["300.1f43 301.1f45"]⟩, ⟨0x1f48, 0x1f48, ["300.1f4a 301.1f4c"]⟩,
   ⟨0x1f49, 0x1f49, ["300.1f4b 301.1f4d"]⟩, ⟨0x1f50, 0x1f50, ["300.1f52 301.1f54 342.1f56"]⟩,
   ⟨0x1f51, 0x1f51, ["300.1f53 301.1f55 342.1f57"]⟩,
   ⟨0x1f59, 0x1f59, ["300.1f5b 301.1f5d 342.1f5f"]⟩,
   ⟨0x1f60, 0x1f60, ["300.1f62 301.1f64 342.1f66 345.1fa0"]⟩,
   ⟨0x1f61, 0x1f61, ["300.1f63 301.1f65 342.1f67 345.1fa1"]⟩, ⟨0x1f62, 0x1f62, ["345.1fa2"]⟩,
   ⟨0x1f63, 0x1f63, ["345.1fa3"]⟩, ⟨0x1f64, 0x1f64, ["345.1fa4"]⟩, ⟨0x1f65, 0x1f65, ["345.1fa5"]⟩,
   ⟨0x1f66, 0x1f66, ["345.1fa6"]⟩, ⟨0x1f67, 0x1f67, ["345.1fa7"]⟩,
   ⟨0x1f68, 0x1f68, ["300.1f6a 301.1f6c 342.1f6e 345.1fa8"]⟩,
   ⟨0x1f69, 0x1f69, ["300.1f6b 301.1f6d 342.1f6f 345.1fa9"]⟩, ⟨0x1f6a, 0x1f6a, ["345.1faa"]⟩,
   ⟨0x1f6b, 0x1f6b, ["345.1fab"]⟩, ⟨0x1f6c, 0x1f6c, ["345.1fac"]⟩, ⟨0x1f6d, 0x1f6d, ["345.1fad"]⟩,
   ⟨0x1f6e, 0x1f6e, ["345.1fae"]⟩, ⟨0x1f6f, 0x1f6f, ["345.1faf"]⟩, ⟨0x1f70, 0x1f70, ["345.1fb2"]⟩,
   ⟨0x1f74, 0x1f74, ["345.1fc2"]⟩, ⟨0x1f7c, 0x1f7c, ["345.1ff2"]⟩, ⟨0x1fb6, 0x1fb6, ["345.1fb7"]⟩,
   ⟨0x1fbf, 0x1fbf, ["300.1fcd 301.1fce 342.1fcf"]⟩, ⟨0x1fc6, 0x1fc6, ["345.1fc7"]⟩,
   ⟨0x1ff6, 0x1ff6, ["345.1ff7"]⟩, ⟨0x1ffe, 0x1ffe, ["300.1fdd 301.1fde 342.1fdf"]⟩,
   ⟨0x2190, 0x2190, ["338.219a"]⟩, ⟨0x2192, 0x2192, ["338.219b"]⟩, ⟨0x2194, 0x2194, ["338.21ae"]⟩,
   ⟨0x21d0, 0x21d0, ["338.21cd"]⟩, ⟨0x21d2, 0x21d2, ["338.21cf"]⟩, ⟨0x21d4, 0x21d4, ["338.21ce"]⟩,
   ⟨0x2203, 0x2203, ["338.2204"]⟩, ⟨0x2208, 0x2208, ["338.2209"]⟩, ⟨0x220b, 0x220b, ["338.220c"]⟩,
   ⟨0x2223, 0x2223, ["338.2224"]⟩, ⟨0x2225, 0x2225, ["338.2226"]⟩, ⟨0x223c, 0x223c, ["338.2241"]⟩,
   ⟨0x2243, 0x2243, ["338.2244"]⟩, ⟨0x2245, 0x2245, ["338.2247"]⟩, ⟨0x2248, 0x2248, ["338.2249"]⟩,
   ⟨0x224d, 0x224d, ["338.226d"]⟩, ⟨0x2261, 0x2261, ["338.2262"]⟩, ⟨0x2264, 0x2264, ["338.2270"]⟩,
   ⟨0x2265, 0x2265, ["338.2271"]⟩, ⟨0x2272, 0x2272, ["338.2274"]⟩, ⟨0x2273, 0x2273, ["338.2275"]⟩,
   ⟨0x2276, 0x2276, ["338.2278"]⟩, ⟨0x2277, 0x2277, ["338.2279"]⟩, ⟨0x227a, 0x227a, ["338.2280"]⟩,
   ⟨0x227b, 0x227b, ["338.2281"]⟩, ⟨0x227c, 0x227c, ["338.22e0"]⟩, ⟨0x227d, 0x227d, ["338.22e1"]⟩,
   ⟨0x2282, 0x2282, ["338.2284"]⟩, ⟨0x2283, 0x2283, ["338.2285"]⟩, ⟨0x2286, 0x2286, ["338.2288"]⟩,
   ⟨0x2287, 0x2287, ["338.2289"]⟩, ⟨0x2291, 0x2291, ["338.22e2"]⟩, ⟨0x2292, 0x2292, ["338.22e3"]⟩,
   ⟨0x22a2, 0x22a2, ["338.22ac"]⟩, ⟨0x22a8, 0x22a8, ["338.22ad"]⟩, ⟨0x22a9, 0x22a9, ["338.22ae"]⟩,
   ⟨0x22ab, 0x22ab, ["338.22af"]⟩, ⟨0x22b2, 0x22b2, ["338.22ea"]⟩, ⟨0x22b3, 0x22b3, ["338.22eb"]⟩,
   ⟨0x22b4, 0x22b4, ["338.22ec"]⟩, ⟨0x22b5, 0x22b5, ["338.22ed"]⟩,
   ⟨0x3046, 0x3046, ["3099.3094"]⟩, ⟨0x304b, 0x304b, ["3099.304c"]⟩,
   ⟨0x304d, 0x304d, ["3099.304e"]⟩, ⟨0x304f, 0x304f, ["3099.3050"]⟩,
   ⟨0x3051, 0x3051, ["3099.3052"]⟩, ⟨0x3053, 0x3053, ["3099.3054"]⟩,
   ⟨0x3055, 0x3055, ["3099.3056"]⟩, ⟨0x3057, 0x3057, ["3099.3058"]⟩,
   ⟨0x3059, 0x3059, ["3099.305a"]⟩, ⟨0x305b, 0x305b, ["3099.305c"]⟩,
   ⟨0x305d, 0x305d, ["3099.305e"]⟩, ⟨0x305f, 0x305f, ["3099.3060"]⟩,
   ⟨0x3061, 0x3061, ["3099.3062"]⟩, ⟨0x3064, 0x3064, ["3099.3065"]⟩,
   ⟨0x3066, 0x3066, ["3099.3067"]⟩, ⟨0x3068, 0x3068, ["3099.3069"]⟩,
   ⟨0x306f, 0x306f, ["3099.3070 309a.3071"]⟩, ⟨0x3072, 0x3072, ["3099.3073 309a.3074"]⟩,
   ⟨0x3075, 0x3075, ["3099.3076 309a.3077"]⟩, ⟨0x3078, 0x3078, ["3099.3079 309a.307a"]⟩,
   ⟨0x307b, 0x307b, ["3099.307c 309a.307d"]⟩, ⟨0x309d, 0x309d, ["3099.309e"]⟩,
   ⟨0x30a6, 0x30a6, ["3099.30f4"]⟩, ⟨0x30ab, 0x30ab, ["3099.30ac"]⟩,
   ⟨0x30ad, 0x30ad, ["3099.30ae"]⟩, ⟨0x30af, 0x30af, ["3099.30b0"]⟩,
   ⟨0x30b1, 0x30b1, ["3099.30b2"]⟩, ⟨0x30b3, 0x30b3, ["3099.30b4"]⟩,
   ⟨0x30b5, 0x30b5, ["3099.30b6"]⟩, ⟨0x30b7, 0x30b7, ["3099.30b8"]⟩,
   ⟨0x30b9, 0x30b9, ["3099.30ba"]⟩, ⟨0x30bb, 0x30bb, ["3099.30bc"]⟩,
   ⟨0x30bd, 0x30bd, ["3099.30be"]⟩, ⟨0x30bf, 0x30bf, ["3099.30c0"]⟩,
   ⟨0x30c1, 0x30c1, ["3099.30c2"]⟩, ⟨0x30c4, 0x30c4, ["3099.30c5"]⟩,
   ⟨0x30c6, 0x30c6, ["3099.30c7"]⟩, ⟨0x30c8, 0x30c8, ["3099.30c9"]⟩,
   ⟨0x30cf, 0x30cf, ["3099.30d0 309a.30d1"]⟩, ⟨0x30d2, 0x30d2, ["3099.30d3 309a.30d4"]⟩,
   ⟨0x30d5, 0x30d5, ["3099.30d6 309a.30d7"]⟩, ⟨0x30d8, 0x30d8, ["3099.30d9 309a.30da"]⟩,
   ⟨0x30db, 0x30db, ["3099.30dc 309a.30dd"]⟩, ⟨0x30ef, 0x30ef, ["3099.30f7"]⟩,
   ⟨0x30f0, 0x30f0, ["3099.30f8"]⟩, ⟨0x30f1, 0x30f1, ["3099.30f9"]⟩,
   ⟨0x30f2, 0x30f2, ["3099.30fa"]⟩, ⟨0x30fd, 0x30fd, ["3099.30fe"]⟩,
   ⟨0x11099, 0x11099, ["110ba.1109a"]⟩, ⟨0x1109b, 0x1109b, ["110ba.1109c"]⟩,
   ⟨0x110a5, 0x110a5, ["110ba.110ab"]⟩, ⟨0x11131, 0x11131, ["11127.1112e"]⟩,
   ⟨0x11132, 0x11132, ["11127.1112f"]⟩, ⟨0x11347, 0x11347, ["1133e.1134b 11357.1134c"]⟩,
   ⟨0x114b9, 0x114b9, ["114b0.114bc 114ba.114bb 114bd.114be"]⟩,
   ⟨0x115b8, 0x115b8, ["115af.115ba"]⟩, ⟨0x115b9, 0x115b9, ["115af.115bb"]⟩,
   ⟨0x11935, 0x11935, ["11930.11938"]⟩]

end CallTrace.Unicode
