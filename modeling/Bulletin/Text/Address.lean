import Bulletin.Text.Entity
import Bulletin.Text.Utf8

/-! # Addresses of links

The address of a link is written with its character references replaced and every character
outside a safe set as percent signs and the hexadecimal bytes of its UTF-8 form. A percent sign
stays, so that what is escaped already is not escaped again. -/

namespace Bulletin.Text

/-- A character that an address holds as it is. -/
def isSafeInAddress (c : Char) : Bool :=
  c.isAlphanum || ":/?#@!$&()*+,;=%_.-~".toList.contains c

/-- A byte as a percent sign and two hexadecimal digits. -/
def percent (b : UInt8) : List Char :=
  let digit := fun n : Nat => (Nat.digitChar n).toUpper
  ['%', digit (b.toNat / 16), digit (b.toNat % 16)]

/-- The written form of an address. -/
def escapeAddress (s : List Char) : List Char :=
  (unescapeEntities s).flatMap fun c =>
    if isSafeInAddress c then [c] else (encodeChar c).flatMap percent

end Bulletin.Text
