import TableEngine.Hash.Sip

/-!
# Keys

A key of a store is hashed in one of two ways: slot arrays use a 64-bit hash of the key
itself, bucket arrays the polynomial hash of its text. `StoreKey` names the two, and nothing
in the stores depends on which functions they are.

Strings and integers of fixed width are keys. A string is hashed as its UTF-8 bytes with the
byte 255, which UTF-8 never uses, at the end; an integer as its bytes, least significant
first.
-/

namespace TableEngine

open Hash

/-- What a store needs to know of a key besides equality. -/
class StoreKey (K : Type) where
  /-- The hash that picks a slot. -/
  hash : K → UInt64
  /-- The text whose polynomial hash picks a bucket. -/
  text : K → String

/-- The lowest `count` bytes of a word, least significant first. -/
def bytesOf (count : Nat) (word : UInt64) : List UInt8 :=
  (List.range count).map fun i => (word >>> (8 * i).toUInt64).toUInt8

instance : StoreKey String where
  hash s := sip13 (s.toUTF8.toList ++ [0xff])
  text s := s

instance : StoreKey UInt8 where
  hash k := sip13 (bytesOf 1 k.toUInt64)
  text k := toString k.toNat

instance : StoreKey UInt32 where
  hash k := sip13 (bytesOf 4 k.toUInt64)
  text k := toString k.toNat

instance : StoreKey UInt64 where
  hash k := sip13 (bytesOf 8 k)
  text k := toString k.toNat

instance : StoreKey Int64 where
  hash k := sip13 (bytesOf 8 k.toUInt64)
  text k := toString k.toInt

end TableEngine
