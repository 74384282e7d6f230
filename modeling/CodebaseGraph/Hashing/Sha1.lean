import Mathlib.Data.List.Nodup
import Mathlib.Algebra.Ring.Nat

/-! The hash from which graph ids and partition ids are made (`src/syntax_materializer/ids.rs`,
`src/hash.rs`): the first ten bytes of a SHA-1 digest, in hexadecimal.
-/

namespace CodebaseGraph.Hashing

namespace Sha1

def rotateLeft (word count : UInt32) : UInt32 :=
  (word <<< count) ||| (word >>> (32 - count))

def bigEndianWord (bytes : List UInt8) : UInt32 :=
  bytes.foldl (fun word byte => (word <<< 8) ||| byte.toUInt32) 0

def wordBytes (word : UInt32) : List UInt8 :=
  [24, 16, 8, 0].map (fun shift : UInt32 => (word >>> shift).toUInt8)

def lengthBytes (bits : UInt64) : List UInt8 :=
  [56, 48, 40, 32, 24, 16, 8, 0].map (fun shift : UInt64 => (bits >>> shift).toUInt8)

/-- The message with its end marker, zeros up to 56 modulo 64, and its length in bits. -/
def padded (input : List UInt8) : List UInt8 :=
  let marked := input ++ [0x80]
  marked ++ List.replicate ((64 + 56 - marked.length % 64) % 64) 0
    ++ lengthBytes (UInt64.ofNat input.length * 8)

def chunks (size : Nat) : Nat → List UInt8 → List (List UInt8)
  | 0, _ => []
  | count + 1, bytes => bytes.take size :: chunks size count (bytes.drop size)

/-- The sixteen words of a chunk and the 64 made from them. -/
def schedule (chunk : List UInt8) : Array UInt32 :=
  let words := ((chunks 4 16 chunk).map bigEndianWord).toArray
  (List.range' 16 64).foldl
    (fun words index =>
      words.push
        (rotateLeft
          (words.getD (index - 3) 0 ^^^ words.getD (index - 8) 0 ^^^ words.getD (index - 14) 0
            ^^^ words.getD (index - 16) 0)
          1))
    words

structure Registers where
  a : UInt32
  b : UInt32
  c : UInt32
  d : UInt32
  e : UInt32

/-- The function and the constant of a round. -/
def roundFunction (registers : Registers) (index : Nat) : UInt32 × UInt32 :=
  let { b, c, d, .. } := registers
  if index < 20 then ((b &&& c) ||| (~~~b &&& d), 0x5a827999)
  else if index < 40 then (b ^^^ c ^^^ d, 0x6ed9eba1)
  else if index < 60 then ((b &&& c) ||| (b &&& d) ||| (c &&& d), 0x8f1bbcdc)
  else (b ^^^ c ^^^ d, 0xca62c1d6)

def round (words : Array UInt32) (registers : Registers) (index : Nat) : Registers :=
  let (f, k) := roundFunction registers index
  let temp := rotateLeft registers.a 5 + f + registers.e + k + words.getD index 0
  {
    a := temp
    b := registers.a
    c := rotateLeft registers.b 30
    d := registers.c
    e := registers.d
  }

def compress (state : Registers) (chunk : List UInt8) : Registers :=
  let words := schedule chunk
  let last := (List.range 80).foldl (round words) state
  {
    a := state.a + last.a
    b := state.b + last.b
    c := state.c + last.c
    d := state.d + last.d
    e := state.e + last.e
  }

def initial : Registers :=
  { a := 0x67452301, b := 0xefcdab89, c := 0x98badcfe, d := 0x10325476, e := 0xc3d2e1f0 }

end Sha1

open Sha1

def sha1 (input : List UInt8) : List UInt8 :=
  let message := padded input
  let last := (chunks 64 (message.length / 64) message).foldl compress initial
  [last.a, last.b, last.c, last.d, last.e].flatMap wordBytes

/-- Two lowercase hexadecimal digits. -/
def hexByte (byte : UInt8) : List Char :=
  [Nat.digitChar (byte.toNat / 16), Nat.digitChar (byte.toNat % 16)]

def sha1Hex (text : String) : String :=
  String.ofList (((sha1 text.toUTF8.toList).take 10).flatMap hexByte)

/-- No two of the texts share a hash. -/
def Collisionless (texts : List String) : Prop :=
  ∀ text ∈ texts, ∀ text' ∈ texts, sha1Hex text = sha1Hex text' → text = text'

theorem Collisionless.mono {texts texts' : List String} (collisionless : Collisionless texts')
    (inside : ∀ text ∈ texts, text ∈ texts')
    : Collisionless texts :=
  fun text member text' member' =>
    collisionless text (inside text member) text' (inside text' member')

/-- Texts collide nowhere if the hashes of the different ones differ. -/
theorem collisionless_of_nodup {texts : List String} (distinct : (texts.map sha1Hex).Nodup)
    : Collisionless texts :=
  fun _ inside _ inside' same => List.inj_on_of_nodup_map distinct inside inside' same

end CodebaseGraph.Hashing

/-! The same hash on natural numbers, where its value on a given text is evaluated quickly. -/

namespace CodebaseGraph.Hashing

namespace Sha1

-- Numbers for words

/-- The number is evaluated before it is used. -/
def force {α : Type} (value : Nat) (use : Nat → α) : α :=
  match value with
  | 0 => use 0
  | smaller + 1 => use (smaller + 1)

@[simp]
theorem force_eq {α : Type} (value : Nat) (use : Nat → α) : force value use = use value := by
  cases value <;> rfl

def turned (value count : Nat) : Nat := value <<< count % 2 ^ 32 ||| value >>> (32 - count)

theorem rotateLeft_toNat (word : UInt32) {count : UInt32} (positive : 0 < count.toNat)
    (bound : count.toNat < 32)
    : (rotateLeft word count).toNat = turned word.toNat count.toNat := by
  have rest : (32 - count).toNat = 32 - count.toNat := by
    rw [UInt32.toNat_sub_of_le]
    · rfl
    · exact UInt32.le_iff_toNat_le.mpr (Nat.le_of_lt bound)
  rw [rotateLeft, UInt32.toNat_or, UInt32.toNat_shiftLeft, UInt32.toNat_shiftRight, rest,
    Nat.mod_eq_of_lt bound, Nat.mod_eq_of_lt (by omega : 32 - count.toNat < 32), turned]

/-- The bytes of a word, highest first. -/
def wordNumber (bytes : List UInt8) : Nat :=
  bytes.foldl (fun word byte => word <<< 8 % 2 ^ 32 ||| byte.toNat) 0

theorem bigEndianWord_toNat (bytes : List UInt8)
    : (bigEndianWord bytes).toNat = wordNumber bytes := by
  refine (List.foldl_hom UInt32.toNat ?_).symm
  intro word byte
  rw [UInt32.toNat_or, UInt32.toNat_shiftLeft, UInt8.toNat_toUInt32]
  rfl

-- The words of a chunk

/-- So many words more, in front of the words there are. -/
def extended : Nat → List Nat → List Nat
  | 0, words => words
  | count + 1, words =>
      force
        (turned (words.getD 2 0 ^^^ words.getD 7 0 ^^^ words.getD 13 0 ^^^ words.getD 15 0) 1)
        (fun word => extended count (word :: words))

def scheduleNumbers (chunk : List UInt8) : List Nat :=
  (extended 64 ((chunks 4 16 chunk).map wordNumber).reverse).reverse

/-- A word counted from the end. -/
theorem getD_toNat {words : Array UInt32} {numbers : List Nat}
    (same : words.toList.map UInt32.toNat = numbers.reverse) {back : Nat}
    (bound : back < words.size)
    : (words.getD (words.size - (back + 1)) 0).toNat = numbers.getD back 0 := by
  have length : numbers.length = words.size := by
    have lengths := congrArg List.length same
    simpa using lengths.symm
  have inside : words.size - (back + 1) < words.size := by omega
  have found : (words.toList.map UInt32.toNat)[words.size - (back + 1)]?
      = some (words[words.size - (back + 1)]).toNat := by
    rw [List.getElem?_map, Array.getElem?_toList, Array.getElem?_eq_getElem inside]
    rfl
  rw [same, List.getElem?_reverse (by omega)] at found
  have position : numbers.length - 1 - (words.size - (back + 1)) = back := by omega
  rw [position] at found
  rw [Array.getD_eq_getD_getElem?, Array.getElem?_eq_getElem inside, List.getD_eq_getElem?_getD,
    found]
  rfl

theorem foldl_extended (words : Array UInt32) (numbers : List Nat) (count : Nat)
    (same : words.toList.map UInt32.toNat = numbers.reverse) (filled : 16 ≤ words.size)
    : ((List.range' words.size count).foldl
          (fun words index =>
            words.push
              (rotateLeft
                (words.getD (index - 3) 0 ^^^ words.getD (index - 8) 0
                  ^^^ words.getD (index - 14) 0 ^^^ words.getD (index - 16) 0)
                1))
          words).toList.map UInt32.toNat
      = (extended count numbers).reverse := by
  induction count generalizing words numbers with
  | zero => exact same
  | succ count ih =>
      rw [List.range'_succ, List.foldl_cons, extended, force_eq]
      have pushed :=
        ih
          (words.push
            (rotateLeft
              (words.getD (words.size - 3) 0 ^^^ words.getD (words.size - 8) 0
                ^^^ words.getD (words.size - 14) 0 ^^^ words.getD (words.size - 16) 0)
              1))
          (turned
              (numbers.getD 2 0 ^^^ numbers.getD 7 0 ^^^ numbers.getD 13 0 ^^^ numbers.getD 15 0)
              1
            :: numbers)
      rw [Array.size_push] at pushed
      refine pushed ?_ (by omega)
      rw [Array.toList_push, List.map_append, same, List.reverse_cons, List.map_singleton,
        rotateLeft_toNat _ (by decide) (by decide)]
      simp only [UInt32.toNat_xor, getD_toNat same (show 2 < words.size by omega),
        getD_toNat same (show 7 < words.size by omega),
        getD_toNat same (show 13 < words.size by omega),
        getD_toNat same (show 15 < words.size by omega)]
      rfl

theorem chunks_length (size count : Nat) (bytes : List UInt8)
    : (chunks size count bytes).length = count := by
  induction count generalizing bytes with
  | zero => rfl
  | succ count ih => rw [chunks, List.length_cons, ih]

theorem schedule_toNat (chunk : List UInt8)
    : (schedule chunk).toList.map UInt32.toNat = scheduleNumbers chunk := by
  have size : ((chunks 4 16 chunk).map bigEndianWord).toArray.size = 16 := by
    simp [chunks_length]
  have started
      : ((chunks 4 16 chunk).map bigEndianWord).toArray.toList.map UInt32.toNat
        = ((chunks 4 16 chunk).map wordNumber).reverse.reverse := by
    rw [List.reverse_reverse, List.map_map]
    exact List.map_congr_left (fun bytes _ => bigEndianWord_toNat bytes)
  have whole := foldl_extended _ _ 64 started (by omega)
  rw [size] at whole
  exact whole

-- Rounds

structure Numbers where
  a : Nat
  b : Nat
  c : Nat
  d : Nat
  e : Nat

def Registers.numbers (registers : Registers) : Numbers :=
  {
    a := registers.a.toNat
    b := registers.b.toNat
    c := registers.c.toNat
    d := registers.d.toNat
    e := registers.e.toNat
  }

def roundNumbers (numbers : Numbers) (index : Nat) : Nat × Nat :=
  let { b, c, d, .. } := numbers
  if index < 20 then ((b &&& c) ||| (2 ^ 32 - 1 - b &&& d), 0x5a827999)
  else if index < 40 then (b ^^^ c ^^^ d, 0x6ed9eba1)
  else if index < 60 then ((b &&& c) ||| (b &&& d) ||| (c &&& d), 0x8f1bbcdc)
  else (b ^^^ c ^^^ d, 0xca62c1d6)

theorem roundFunction_toNat (registers : Registers) (index : Nat)
    : ((roundFunction registers index).1.toNat, (roundFunction registers index).2.toNat)
      = roundNumbers registers.numbers index := by
  unfold roundFunction roundNumbers Registers.numbers
  dsimp only
  split_ifs <;>
    simp [UInt32.toNat_or, UInt32.toNat_and, UInt32.toNat_xor, UInt32.toNat_not, UInt32.size]

/-- The rounds from an index on, each with its word. -/
def rounds (index : Nat) (numbers : Numbers) : List Nat → Numbers
  | [] => numbers
  | word :: words =>
      let (f, k) := roundNumbers numbers index
      force ((turned numbers.a 5 + f + numbers.e + k + word) % 2 ^ 32) (fun temp =>
        force (turned numbers.b 30) (fun c =>
          force (index + 1) (fun next =>
            rounds next { a := temp, b := numbers.a, c, d := numbers.c, e := numbers.d } words)))

theorem foldl_rounds (words : Array UInt32) (count : Nat) {index : Nat}
    (inside : index + count = words.size) (registers : Registers)
    : ((List.range' index count).foldl (round words) registers).numbers
      = rounds index registers.numbers ((words.toList.map UInt32.toNat).drop index) := by
  induction count generalizing index registers with
  | zero =>
      have nothing : (words.toList.map UInt32.toNat).drop index = [] :=
        List.drop_eq_nil_of_le (by simp [← inside])
      rw [nothing]
      rfl
  | succ count ih =>
      have bound : index < words.size := by omega
      have step
          : (words.toList.map UInt32.toNat).drop index
            = (words.getD index 0).toNat :: (words.toList.map UInt32.toNat).drop (index + 1) := by
        rw [List.drop_eq_getElem_cons (by simpa using bound)]
        simp [Array.getD_eq_getD_getElem?, Array.getElem?_eq_getElem bound]
      have split := roundFunction_toNat registers index
      rw [List.range'_succ, List.foldl_cons, ih (by omega), step, rounds, ← split]
      simp only [force_eq]
      congr 1
      simp only [Registers.numbers, round, UInt32.toNat_add,
        rotateLeft_toNat registers.a (show 0 < (5 : UInt32).toNat by decide) (by decide),
        rotateLeft_toNat registers.b (show 0 < (30 : UInt32).toNat by decide) (by decide)]
      simp [Nat.add_mod]

-- Whole messages

def compressNumbers (state : Numbers) (chunk : List UInt8) : Numbers :=
  let last := rounds 0 state (scheduleNumbers chunk)
  force ((state.a + last.a) % 2 ^ 32) (fun a =>
    force ((state.b + last.b) % 2 ^ 32) (fun b =>
      force ((state.c + last.c) % 2 ^ 32) (fun c =>
        force ((state.d + last.d) % 2 ^ 32) (fun d =>
          force ((state.e + last.e) % 2 ^ 32) (fun e => { a, b, c, d, e })))))

theorem extended_length (count : Nat) (words : List Nat)
    : (extended count words).length = words.length + count := by
  induction count generalizing words with
  | zero => rfl
  | succ count ih =>
      rw [extended, force_eq, ih, List.length_cons]
      omega

theorem schedule_size (chunk : List UInt8) : (schedule chunk).size = 80 := by
  have lengths := congrArg List.length (schedule_toNat chunk)
  simpa [scheduleNumbers, extended_length, chunks_length] using lengths

theorem compress_numbers (state : Registers) (chunk : List UInt8)
    : (compress state chunk).numbers = compressNumbers state.numbers chunk := by
  have last := foldl_rounds (schedule chunk) 80 (by rw [schedule_size]) state
  rw [schedule_toNat, List.drop_zero, ← List.range_eq_range'] at last
  rw [compressNumbers, ← last]
  simp [compress, Registers.numbers]

/-- The bytes of a word from its number. -/
def numberBytes (number : Nat) : List Nat :=
  [24, 16, 8, 0].map (fun shift => number >>> shift % 256)

theorem wordBytes_toNat (word : UInt32)
    : (wordBytes word).map UInt8.toNat = numberBytes word.toNat := by
  simp [wordBytes, numberBytes, UInt32.toNat_shiftRight]

end Sha1

open Sha1

/-- The loop that lists bytes puts those from an index on behind the ones it has read. -/
theorem toList_loop (bytes : ByteArray) (index : Nat) (read : List UInt8)
    : ByteArray.toList.loop bytes index read = read.reverse ++ bytes.data.toList.drop index := by
  induction index, read using ByteArray.toList.loop.induct bytes with
  | case1 index read inside ih =>
      have bound : index < bytes.data.toList.length := inside
      have first : bytes.get! index = bytes.data.toList[index] := by
        simp only [ByteArray.get!, Array.getElem_toList]
        exact getElem!_pos bytes.data index bound
      rw [ByteArray.toList.loop, if_pos inside, ih, first, List.drop_eq_getElem_cons bound]
      simp
  | case2 index read outside =>
      have none : bytes.data.toList.length ≤ index := Nat.le_of_not_lt outside
      rw [ByteArray.toList.loop, if_neg outside, List.drop_eq_nil_of_le none, List.append_nil]

/-- `sha1Hex` on numbers. -/
def sha1HexNumbers (text : String) : String :=
  let message := padded text.toUTF8.data.toList
  let last := (chunks 64 (message.length / 64) message).foldl compressNumbers initial.numbers
  let digest := [last.a, last.b, last.c, last.d, last.e].flatMap numberBytes
  String.ofList
    ((digest.take 10).flatMap (fun byte => [Nat.digitChar (byte / 16), Nat.digitChar (byte % 16)]))

theorem sha1Hex_eq_numbers (text : String) : sha1Hex text = sha1HexNumbers text := by
  have folded (message : List (List UInt8)) (state : Registers)
      : message.foldl compressNumbers state.numbers = (message.foldl compress state).numbers :=
    List.foldl_hom Registers.numbers (fun state chunk => (compress_numbers state chunk).symm)
  have digest (words : List UInt32)
      : (words.flatMap wordBytes).map UInt8.toNat
        = (words.map UInt32.toNat).flatMap numberBytes := by
    rw [List.map_flatMap, List.flatMap_map]
    exact List.flatMap_congr (fun word _ => wordBytes_toNat word)
  have hex (bytes : List UInt8)
      : bytes.flatMap hexByte
        = (bytes.map UInt8.toNat).flatMap
            (fun byte => [Nat.digitChar (byte / 16), Nat.digitChar (byte % 16)]) := by
    rw [List.flatMap_map]
    rfl
  have bytes : text.toUTF8.toList = text.toUTF8.data.toList :=
    (toList_loop text.toUTF8 0 []).trans (by simp)
  rw [sha1Hex, hex, List.map_take, sha1, digest, sha1HexNumbers, bytes]
  simp only [folded]
  rfl

end CodebaseGraph.Hashing
