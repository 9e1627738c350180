import Fanout.Proofs.Json.Spelling
import Fanout.Text.Form

/-!
Texts in the form encoding, there and back. Bytes that are escaped one by one are read as they were,
and they contain no separator.
-/

namespace Fanout.Text

open Json (asciiOctets)

/-! ### Text of ASCII -/

/-- A text of ASCII characters only. -/
def IsAscii (s : String) : Prop := ∀ c ∈ s.toList, c.toNat < 0x80

theorem ofText_ascii {s : String} (h : IsAscii s) : Octets.ofText s = asciiOctets s.toList := by
  have each : ∀ c ∈ s.toList, String.utf8EncodeChar c = [UInt8.ofNat c.toNat] := by
    intro c hc
    have one := Json.utf8EncodeChar_ascii c.toNat (h c hc)
    rwa [Char.ofNat_toNat] at one
  rw [← String.ofList_toList (s := s), Json.ofText_ofList, String.toList_ofList, asciiOctets,
    List.map_eq_flatMap]
  exact List.flatMap_congr each

theorem Utf8.scan_asciiOctets {l : List Char} (h : ∀ c ∈ l, c.toNat < 0x80) :
    scan none (asciiOctets l) = l := by
  induction l with
  | nil => rfl
  | cons c rest ih =>
    have small : c.toNat < 0x80 := h c List.mem_cons_self
    have whole : (UInt8.ofNat c.toNat).toNat = c.toNat := by
      rw [UInt8.toNat_ofNat', Nat.mod_eq_of_lt (by omega)]
    have others := ih fun x hx => h x (List.mem_cons_of_mem c hx)
    rw [asciiOctets, List.map_cons, scan, whole, step, begin, if_pos small]
    simp only [Char.ofNat_toNat, List.singleton_append]
    rw [← asciiOctets, others]

theorem Utf8.lossy_ofText_ascii {s : String} (h : IsAscii s) : lossy (Octets.ofText s) = s := by
  rw [lossy, ofText_ascii h, scan_asciiOctets h, String.ofList_toList]

namespace Form

/-! ### Escapes -/

/-- Bytes with an escape for each of them, whose hexadecimal digits may be in either case. -/
inductive Escaped : Octets → Octets → Prop
  | nil : Escaped [] []
  | cons {b h l : UInt8} {plain escaped : Octets} (high : Octets.hexValue? h = some (b.toNat / 16))
      (low : Octets.hexValue? l = some (b.toNat % 16)) (rest : Escaped plain escaped) :
      Escaped (b :: plain) (0x25 :: h :: l :: escaped)

variable {plain escaped : Octets}

theorem unescape_of_escaped (h : Escaped plain escaped) : unescape escaped = plain := by
  induction h with
  | nil => rfl
  | @cons b h l plain escaped high low _ ih =>
    have joined : UInt8.ofNat (16 * (b.toNat / 16) + b.toNat % 16) = b := by
      rw [Nat.div_add_mod, UInt8.ofNat_toNat]
    rw [unescape]
    simp [high, low, joined, ih]

/-- What escaped bytes are made of. -/
theorem Escaped.mem (h : Escaped plain escaped) {x : UInt8} (hx : x ∈ escaped) :
    x = 0x25 ∨ (Octets.hexValue? x).isSome := by
  induction h with
  | nil => cases hx
  | cons high low _ ih =>
    simp only [List.mem_cons] at hx
    rcases hx with rfl | rfl | rfl | hx
    · exact .inl rfl
    · exact .inr (by rw [high]; rfl)
    · exact .inr (by rw [low]; rfl)
    · exact ih hx

/-! ### Pairs -/

theorem pieces_of_not_mem {separator : UInt8} {b : Octets} (h : separator ∉ b) :
    pieces separator b = [b] := by
  induction b with
  | nil => rfl
  | cons x rest ih =>
    rw [List.mem_cons, not_or] at h
    rw [pieces, if_neg (Ne.symm h.1), ih h.2]

theorem pair_append {name value : Octets} (h : 0x3D ∉ name) :
    pair (name ++ 0x3D :: value) = (text name, text value) := by
  have plain : ∀ x ∈ name, (x != 0x3D) = true := by
    intro x hx
    rw [bne_iff_ne]
    rintro rfl
    exact h hx
  rw [pair, List.takeWhile_append_of_pos plain, List.dropWhile_append_of_pos plain]
  simp

/-- One pair, with its value escaped byte by byte. -/
theorem pairs_of_escaped {name : Octets} {s : String} (ascii : IsAscii s)
    (h : Escaped (Octets.ofText s) escaped) (equals : 0x3D ∉ name) (ampersand : 0x26 ∉ name) :
    pairs (name ++ 0x3D :: escaped) = [(text name, s)] := by
  have apart : (0x26 : UInt8) ∉ name ++ 0x3D :: escaped := by
    have digits : (0x26 : UInt8) ∉ escaped := by
      intro hx
      have mark := h.mem hx
      revert mark
      decide
    simp [ampersand, digits]
  have value : text escaped = s := by
    rw [text, unescape_of_escaped h, Utf8.lossy_ofText_ascii ascii]
  rw [pairs, pieces_of_not_mem apart, List.filter_cons_of_pos (by simp), List.filter_nil,
    List.map_singleton, pair_append equals, value]

end Form

end Fanout.Text
