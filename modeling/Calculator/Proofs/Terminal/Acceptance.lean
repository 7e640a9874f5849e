import Calculator.Grammar.Reader
import Calculator.Terminal.Output

/-!
# What sinks accept

A sink with a limit accepts the beginning of all that is written to it. A write fails if the text
does not fit behind what was written before, and from then on nothing is accepted any more.
-/

namespace Calculator

namespace Sink

/-- Whether a sink with the limit accepts all of the text. -/
def fits (limit : Option Nat) (text : String) : Bool :=
  withinLimit limit text.toUTF8.size

/-- The result of the last write, if that is the text written in all. -/
def written (limit : Option Nat) (text : String) : Except Fault Unit :=
  if fits limit text then .ok () else .error .pipeClosed

variable {limit : Option Nat} {text held : String} {bytes : ByteArray}

theorem written_of_fits (h : fits limit text = true) : written limit text = .ok () :=
  if_pos h

theorem written_of_not_fits (h : fits limit text = false) :
    written limit text = .error .pipeClosed :=
  if_neg (Bool.eq_false_iff.1 h)

theorem clip_of_within (h : withinLimit limit bytes.size = true) : clip limit bytes = bytes := by
  cases limit with
  | none => rfl
  | some n =>
    have hn : bytes.size ≤ n := by simpa [withinLimit] using h
    apply ByteArray.ext
    rw [clip, ByteArray.data_extract, Array.extract_eq_self_of_le hn]

theorem size_clip_lt_iff :
    (clip limit bytes).size < bytes.size ↔ ¬ withinLimit limit bytes.size = true := by
  cases limit with
  | none => simp [clip, withinLimit]
  | some n =>
    rw [clip, ByteArray.size_extract, withinLimit, Option.all_some, decide_eq_true_iff]
    omega

/-- Nothing behind a text that does not fit is accepted. -/
theorem clip_append_of_not_fits (h : fits limit held = false) (text : String) :
    clip limit (held ++ text).toUTF8 = clip limit held.toUTF8 := by
  cases limit with
  | none => cases h
  | some n =>
    have hn : n < held.toByteArray.size := by simpa [fits, withinLimit] using h
    have hempty : text.toByteArray.extract (0 - held.toByteArray.size)
        (n - held.toByteArray.size) = .empty :=
      ByteArray.extract_eq_empty_iff.2 (by omega)
    rw [String.toUTF8_eq_toByteArray, String.toUTF8_eq_toByteArray, String.toByteArray_append, clip,
      clip, ByteArray.extract_append, hempty, ByteArray.append_empty]

theorem fits_append_of_not_fits (h : fits limit held = false) (text : String) :
    fits limit (held ++ text) = false := by
  have hsize : held.toUTF8.size ≤ (held ++ text).toUTF8.size := by
    rw [String.toUTF8_eq_toByteArray, String.toUTF8_eq_toByteArray, String.toByteArray_append,
      ByteArray.size_append]
    exact Nat.le_add_right _ _
  exact Bool.eq_false_iff.2 fun hfits => Bool.eq_false_iff.1 h (withinLimit_mono hfits hsize)

theorem fits_empty (limit : Option Nat) : fits limit "" = true := by
  cases limit with
  | none => rfl
  | some n => exact decide_eq_true (Nat.zero_le n)

/-- A sink that has accepted a text takes on as much of the next one as fits. -/
theorem write_clipped (h : fits limit held = true) (text : String) :
    write text ⟨limit, clip limit held.toUTF8⟩ =
      (written limit (held ++ text), ⟨limit, clip limit (held ++ text).toUTF8⟩) := by
  have hbytes : clip limit held.toUTF8 ++ text.toUTF8 = (held ++ text).toUTF8 := by
    rw [clip_of_within h]
    exact String.toByteArray_append.symm
  rw [write, hbytes, written, fits]
  by_cases hfits : withinLimit limit (held ++ text).toUTF8.size = true
  · rw [if_pos hfits, if_neg (mt size_clip_lt_iff.1 (not_not_intro hfits))]
  · rw [if_neg hfits, if_pos (size_clip_lt_iff.2 hfits)]

/-- A sink that could not accept all of a text accepts nothing more. -/
theorem write_overfull (h : fits limit held = false) (htext : text ≠ "") :
    write text ⟨limit, clip limit held.toUTF8⟩ =
      (.error .pipeClosed, ⟨limit, clip limit held.toUTF8⟩) := by
  cases limit with
  | none => cases h
  | some n =>
    have hn : n < held.toUTF8.size := by simpa [fits, withinLimit] using h
    have hsize : (clip (some n) held.toUTF8).size = n := by
      rw [clip, ByteArray.size_extract]
      omega
    have hpos : 0 < text.toUTF8.size :=
      Nat.pos_of_ne_zero fun h => htext (String.utf8ByteSize_eq_zero_iff.1 h)
    have hkept : clip (some n) (clip (some n) held.toUTF8 ++ text.toUTF8) =
        clip (some n) held.toUTF8 := by
      rw [clip, ByteArray.extract_append_eq_left hsize.symm]
    rw [write, hkept, if_pos]
    rw [ByteArray.size_append]
    exact Nat.lt_add_of_pos_right hpos

/-- Whatever was written before, a sink accepts the beginning of it all. -/
theorem write_behind (held : String) (htext : text ≠ "") :
    write text ⟨limit, clip limit held.toUTF8⟩ =
      (written limit (held ++ text), ⟨limit, clip limit (held ++ text).toUTF8⟩) := by
  cases hheld : fits limit held with
  | true => exact write_clipped hheld text
  | false =>
    rw [write_overfull hheld htext, written_of_not_fits (fits_append_of_not_fits hheld text),
      clip_append_of_not_fits hheld]

end Sink

end Calculator
