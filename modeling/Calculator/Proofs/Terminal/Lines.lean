import Calculator.Terminal.Console

/-!
# Lines

The lines of a text, and the lines of an input in bytes. A device that is read line by line
gives the lines of its input in order, and an input in UTF-8 has the lines of its text.
-/

namespace Calculator

namespace Text

variable {α β : Type} {isEnd : α → Bool}

/-- What stands before each end, and what is left after the last one unless that is nothing. -/
def pieces (isEnd : α → Bool) : List α → List (List α)
  | [] => []
  | a :: as =>
    if isEnd a then [] :: pieces isEnd as
    else match pieces isEnd as with
      | [] => [[a]]
      | piece :: rest => (a :: piece) :: rest

/-- The lines of a text without their ends. -/
def lines (text : String) : List String :=
  (pieces (· == '\n') text.toList).map fun cs => String.ofList (trimEnd Device.isLineEnd cs)

def bytes (text : String) : List UInt8 :=
  text.toUTF8.data.toList

/-! ## Pieces -/

theorem pieces_cons_end {a : α} (h : isEnd a = true) (as : List α) :
    pieces isEnd (a :: as) = [] :: pieces isEnd as := by
  rw [pieces, if_pos h]

theorem pieces_cons {a : α} (h : isEnd a = false) (as : List α) :
    pieces isEnd (a :: as) = match pieces isEnd as with
      | [] => [[a]]
      | piece :: rest => (a :: piece) :: rest := by
  rw [pieces, if_neg (Bool.eq_false_iff.1 h)]

theorem pieces_append {xs : List α} (hne : xs ≠ []) (h : ∀ x ∈ xs, isEnd x = false)
    (as : List α) :
    pieces isEnd (xs ++ as) = match pieces isEnd as with
      | [] => [xs]
      | piece :: rest => (xs ++ piece) :: rest := by
  induction xs with
  | nil => exact absurd rfl hne
  | cons x xs ih =>
    obtain ⟨hx, h⟩ := List.forall_mem_cons.1 h
    rw [List.cons_append, pieces_cons hx]
    cases xs with
    | nil => rfl
    | cons y xs =>
      rw [ih (List.cons_ne_nil y xs) h]
      cases pieces isEnd as <;> rfl

theorem pieces_append_end {xs : List α} {a : α} (h : ∀ x ∈ xs, isEnd x = false)
    (ha : isEnd a = true) (as : List α) :
    pieces isEnd (xs ++ a :: as) = xs :: pieces isEnd as := by
  cases xs with
  | nil => exact pieces_cons_end ha as
  | cons x xs =>
    rw [pieces_append (List.cons_ne_nil x xs) h, pieces_cons_end ha]
    exact congrArg (· :: _) (List.append_nil _)

/-- The first piece ends at the first end. -/
theorem pieces_eq_cons {as : List α} (h : as ≠ []) :
    pieces isEnd as =
      as.takeWhile (!isEnd ·) :: pieces isEnd ((as.dropWhile (!isEnd ·)).drop 1) := by
  induction as with
  | nil => exact absurd rfl h
  | cons a as ih =>
    cases ha : isEnd a with
    | true => rw [pieces_cons_end ha, List.takeWhile_cons, List.dropWhile_cons, ha]; rfl
    | false =>
      rw [pieces_cons ha, List.takeWhile_cons, List.dropWhile_cons, ha]
      cases as with
      | nil => rfl
      | cons b as => rw [ih (List.cons_ne_nil b as)]; rfl

/-- Behind an end the pieces are those of the rest. -/
theorem pieces_append_cons_end {a : α} (ha : isEnd a = true) (xs as : List α) :
    pieces isEnd (xs ++ a :: as) = pieces isEnd (xs ++ [a]) ++ pieces isEnd as := by
  induction xs with
  | nil => rw [List.nil_append, List.nil_append, pieces_cons_end ha, pieces_cons_end ha]; rfl
  | cons x xs ih =>
    rw [List.cons_append, List.cons_append]
    cases hx : isEnd x with
    | true => rw [pieces_cons_end hx, pieces_cons_end hx, ih]; rfl
    | false =>
      rw [pieces_cons hx, pieces_cons hx, ih]
      have hne : xs ++ [a] ≠ [] := List.concat_ne_nil a xs
      rw [pieces_eq_cons hne]
      rfl

theorem length_pieces_le (as : List α) : (pieces isEnd as).length ≤ as.length := by
  induction as with
  | nil => exact Nat.le_refl 0
  | cons a as ih =>
    cases ha : isEnd a with
    | true => rw [pieces_cons_end ha]; exact Nat.succ_le_succ ih
    | false =>
      rw [pieces_cons ha]
      split
      · exact Nat.succ_le_succ (Nat.zero_le _)
      · next hpieces => rw [hpieces] at ih; exact Nat.le_succ_of_le ih

/-- An encoding in which the ends stay ends by themselves, and nothing else has one in it,
leaves the pieces as they are. -/
theorem pieces_flatMap {isEnd' : β → Bool} {encode : α → List β}
    (hend : ∀ a, isEnd a = true → ∃ b, encode a = [b] ∧ isEnd' b = true)
    (hother : ∀ a, isEnd a = false → encode a ≠ [] ∧ ∀ b ∈ encode a, isEnd' b = false)
    (as : List α) :
    pieces isEnd' (as.flatMap encode) = (pieces isEnd as).map (·.flatMap encode) := by
  induction as with
  | nil => rfl
  | cons a as ih =>
    rw [List.flatMap_cons]
    cases ha : isEnd a with
    | true =>
      obtain ⟨b, hb, hb'⟩ := hend a ha
      rw [hb, List.singleton_append, pieces_cons_end hb', pieces_cons_end ha, ih]
      rfl
    | false =>
      obtain ⟨hne, hnone⟩ := hother a ha
      rw [pieces_append hne hnone, pieces_cons ha, ih]
      cases pieces isEnd as with
      | nil => exact congrArg (fun xs => [xs]) (List.append_nil _).symm
      | cons piece rest => rfl

/-! ## UTF-8 -/

theorem bytes_eq_flatMap (text : String) :
    bytes text = text.toList.flatMap String.utf8EncodeChar := by
  rw [bytes, String.toUTF8_eq_toByteArray, ← String.utf8Encode_toList, List.utf8Encode,
    List.data_toByteArray]

theorem bytes_ofList (cs : List Char) :
    bytes (String.ofList cs) = cs.flatMap String.utf8EncodeChar := by
  rw [bytes_eq_flatMap, String.toList_ofList]

theorem toByteArray_bytes (text : String) : (bytes text).toByteArray = text.toUTF8 := by
  apply ByteArray.ext
  rw [List.data_toByteArray, bytes, Array.toArray_toList]

theorem fromUTF8?_bytes (text : String) :
    String.fromUTF8? (bytes text).toByteArray = some text := by
  rw [toByteArray_bytes, String.fromUTF8?, String.toUTF8_eq_toByteArray,
    dif_pos text.isValidUTF8]
  rfl

theorem ofNat_ne_newline {n : Nat} (h : n % 256 ≠ 10) : UInt8.ofNat n ≠ Device.newline :=
  fun heq => h (congrArg UInt8.toNat heq)

/-- No other character has the byte of a newline in it: beyond ASCII all bytes are high. -/
theorem ne_newline_of_mem_utf8EncodeChar {c : Char} (hc : c ≠ '\n') {b : UInt8}
    (hb : b ∈ String.utf8EncodeChar c) : b ≠ Device.newline := by
  have hval : c.val.toNat ≠ 10 := fun h => hc (Char.ext (UInt32.toNat_inj.1 h))
  revert hb
  fun_cases String.utf8EncodeChar c <;>
    simp only [List.mem_cons, List.not_mem_nil, or_false]
  · rintro rfl
    apply ofNat_ne_newline
    omega
  · rintro (rfl | rfl) <;> apply ofNat_ne_newline <;> omega
  · rintro (rfl | rfl | rfl) <;> apply ofNat_ne_newline <;> omega
  · rintro (rfl | rfl | rfl | rfl) <;> apply ofNat_ne_newline <;> omega

theorem bytes_no_newline {text : String} (h : '\n' ∉ text.toList) :
    ∀ b ∈ bytes text, (b == Device.newline) = false := by
  rw [bytes_eq_flatMap]
  intro b hb
  obtain ⟨c, hc, hb⟩ := List.mem_flatMap.1 hb
  have hne : c ≠ '\n' := fun heq => h (heq ▸ hc)
  exact beq_eq_false_iff_ne.2 (ne_newline_of_mem_utf8EncodeChar hne hb)

theorem pieces_bytes (text : String) :
    pieces (· == Device.newline) (bytes text) =
      (pieces (· == '\n') text.toList).map (·.flatMap String.utf8EncodeChar) := by
  rw [bytes_eq_flatMap]
  refine pieces_flatMap (fun c hc => ?_) (fun c hc => ⟨String.utf8EncodeChar_ne_nil, ?_⟩) _
  · rw [beq_iff_eq] at hc
    subst hc
    exact ⟨Device.newline, rfl, rfl⟩
  · exact fun b hb =>
      beq_eq_false_iff_ne.2 (ne_newline_of_mem_utf8EncodeChar (beq_eq_false_iff_ne.1 hc) hb)

end Text

/-! ## Reading -/

namespace Device

/-- What a line of an input is read as. -/
def received (line : List UInt8) : Except Fault String :=
  match String.fromUTF8? line.toByteArray with
  | some text => .ok (String.ofList (Text.trimEnd isLineEnd text.toList))
  | none => .error .malformedText

/-- What the lines of an input are read as. -/
def lines (input : List UInt8) : List (Except Fault String) :=
  (Text.pieces (· == newline) input).map received

variable {device : Device}

theorem readLine_of_lines_nil (h : lines device.input = []) :
    device.readLine = (.ok none, device) := by
  rw [readLine]
  cases hinput : device.input with
  | nil => rfl
  | cons b bs =>
    rw [hinput, lines, Text.pieces_eq_cons (List.cons_ne_nil b bs)] at h
    exact nomatch h

/-- Reading takes the first line and leaves the others. -/
theorem readLine_of_lines_cons {line : Except Fault String} {rest : List (Except Fault String)}
    (h : lines device.input = line :: rest) :
    ∃ input, device.readLine = (line.map some, { device with input }) ∧ lines input = rest := by
  have hne : device.input ≠ [] := fun hinput => by rw [hinput] at h; exact nomatch h
  rw [lines, Text.pieces_eq_cons hne, List.map_cons] at h
  obtain ⟨rfl, rfl⟩ := List.cons.inj h
  refine ⟨_, ?_, rfl⟩
  rw [readLine, if_neg (by rwa [List.isEmpty_iff]), received]
  simp only [bne]
  cases String.fromUTF8? (device.input.takeWhile fun b => !b == newline).toByteArray <;> rfl

/-- There are no more lines than bytes. -/
theorem length_lines_le (input : List UInt8) : (lines input).length ≤ input.length := by
  rw [lines, List.length_map]
  exact Text.length_pieces_le input

theorem received_bytes (text : String) :
    received (Text.bytes text) = .ok (String.ofList (Text.trimEnd isLineEnd text.toList)) := by
  rw [received, Text.fromUTF8?_bytes]

/-- An input in UTF-8 has the lines of its text. -/
theorem lines_bytes (text : String) : lines (Text.bytes text) = (Text.lines text).map .ok := by
  rw [lines, Text.pieces_bytes, Text.lines, List.map_map, List.map_map]
  refine List.map_congr_left fun cs _ => ?_
  rw [Function.comp_apply, ← Text.bytes_ofList, received_bytes, String.toList_ofList,
    Function.comp_apply]

/-- A line of text, and then more input. -/
theorem lines_bytes_append {text : String} (h : '\n' ∉ text.toList) (input : List UInt8) :
    lines (Text.bytes text ++ newline :: input) =
      .ok (String.ofList (Text.trimEnd isLineEnd text.toList)) :: lines input := by
  rw [lines, Text.pieces_append_end (Text.bytes_no_newline h) rfl, List.map_cons, received_bytes,
    lines]

end Device

end Calculator
