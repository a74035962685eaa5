/-!
# Text as bytes

The UTF-8 bytes of a text, and the text that bytes stand for if they are well formed. A line
break is the only character with a byte 10, so bytes can be cut into lines before they are
decoded.
-/

namespace TraceRollup.Text

/-- The UTF-8 bytes of a text. -/
def bytes (s : String) : List UInt8 := s.toList.flatMap String.utf8EncodeChar

def ofBytes? (bs : List UInt8) : Option String := String.fromUTF8? ⟨bs.toArray⟩

theorem byteArray_bytes (s : String) : (⟨(bytes s).toArray⟩ : ByteArray) = s.toByteArray := by
  rw [← String.utf8Encode_toList, List.utf8Encode]
  apply ByteArray.ext
  simp [bytes]

theorem ofBytes?_bytes (s : String) : ofBytes? (bytes s) = some s := by
  unfold ofBytes?
  rw [byteArray_bytes]
  simp [String.fromUTF8?, s.isValidUTF8, String.fromUTF8]

def newline : UInt8 := 10

theorem eq_newline_of_mem {c : Char} (h : newline ∈ String.utf8EncodeChar c) : c = '\n' := by
  have key (n : Nat) (hn : n < 256) (h10 : newline = UInt8.ofNat n) : n = 10 := by
    have := congrArg UInt8.toNat h10
    rw [UInt8.toNat_ofNat_of_lt' (by exact hn)] at this
    exact this.symm
  unfold String.utf8EncodeChar at h
  simp only at h
  split at h
  · simp only [List.mem_singleton] at h
    exact Char.ext (UInt32.toNat_inj.1 (key _ (by omega) h))
  · split at h
    · simp only [List.mem_cons, List.not_mem_nil, or_false] at h
      rcases h with h | h <;> have := key _ (by omega) h <;> omega
    · split at h
      · simp only [List.mem_cons, List.not_mem_nil, or_false] at h
        rcases h with h | h | h <;> have := key _ (by omega) h <;> omega
      · simp only [List.mem_cons, List.not_mem_nil, or_false] at h
        rcases h with h | h | h | h <;> have := key _ (by omega) h <;> omega

theorem newline_mem_bytes {s : String} (h : newline ∈ bytes s) : '\n' ∈ s.toList := by
  obtain ⟨c, hc, hb⟩ := List.mem_flatMap.1 h
  exact eq_newline_of_mem hb ▸ hc

end TraceRollup.Text
