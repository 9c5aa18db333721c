import Routing.Proofs.Text.Bytes
import Routing.Url

/-!
# Reading a URL with a cursor

A cursor gives the pieces of its URL one after the other, as if they had been cut ahead of time. It
always stands between two characters of the URL, and moves on with every piece that it gives, so it
comes to the end.

* `Cursor.left` — the pieces that a cursor has not read.
* `Cursor.StandsIn` — the invariant: behind the bytes before the cursor stands the rest of the URL.
* `Cursor.exists_next_eq` — one call moves the cursor over some characters.
* `Cursor.reads_pieces` — any number of calls, and the calls up to the end.
-/

namespace Routing.Url.Cursor

open Text (slash)

/-! ## What is left to read -/

/-- The pieces that a cursor has not read. -/
def left (c : Cursor) : List String :=
  (Text.pieces c.rest).map String.ofList

theorem left_start (url : String) : (start url).left = pieces url := rfl

theorem atEnd_eq_true_iff (c : Cursor) : c.atEnd = true ↔ c.left = [] := by
  rw [atEnd_iff, left, List.map_eq_nil_iff]

/-- Reading gives the first piece that is left, and leaves the others. -/
theorem next_of_left (c : Cursor) :
    c.next.1 = c.left.head? ∧ c.next.2.left = c.left.tail := by
  rcases next_eq c with ⟨hpiece, hrest⟩
  constructor
  · rw [hpiece, left, List.head?_map]
  · rw [left, hrest, left, List.map_tail]

/-- Every call reads one piece of those that are left, as long as there are any. -/
theorem left_after (calls : Nat) (c : Cursor) : (c.after calls).left = c.left.drop calls := by
  induction calls generalizing c with
  | zero => rfl
  | succ calls ih =>
    show (c.next.2.after calls).left = c.left.drop (calls + 1)
    rw [ih, c.next_of_left.2, List.drop_tail]

theorem after_succ (calls : Nat) (c : Cursor) :
    c.after (calls + 1) = (c.after calls).next.2 := by
  induction calls generalizing c with
  | zero => rfl
  | succ calls ih => exact ih c.next.2

/-- What a call gives after any number of calls. -/
theorem next_after (calls : Nat) (c : Cursor) : (c.after calls).next.1 = c.left[calls]? := by
  rw [(c.after calls).next_of_left.1, left_after, List.head?_drop]

/-- The cursor is at the end exactly when a call gives no piece. -/
theorem atEnd_iff_next (c : Cursor) : c.atEnd = true ↔ c.next.1 = none := by
  rw [atEnd_eq_true_iff, c.next_of_left.1, List.head?_eq_none_iff]

/-- It is enough to look at the bytes that are left. -/
theorem atEnd_iff_bytes (c : Cursor) :
    c.atEnd = true ↔ ∀ byte ∈ Text.bytes (String.ofList c.rest), byte = slash.toUInt8 := by
  rw [Text.forall_mem_bytes_iff (by decide), String.toList_ofList, atEnd, List.all_eq_true]
  simp only [decide_eq_true_eq]

/-! ## Where the cursor stands -/

theorem byteCount_eq_utf8ByteSize (cs : List Char) :
    byteCount cs = (String.ofList cs).utf8ByteSize := by
  induction cs with
  | nil => rfl
  | cons c cs ih =>
    have hcons : byteCount (c :: cs) = c.utf8Size + byteCount cs := rfl
    rw [hcons, ih, String.utf8ByteSize_ofList, String.utf8ByteSize_ofList, String.utf8Len_cons,
      Nat.add_comm]

theorem byteCount_append (front back : List Char) :
    byteCount (front ++ back) = byteCount front + byteCount back := by
  simp only [byteCount_eq_utf8ByteSize, String.ofList_append, String.utf8ByteSize_append]

theorem byteCount_pos {cs : List Char} (h : cs ≠ []) : 0 < byteCount cs := by
  cases cs with
  | nil => exact absurd rfl h
  | cons c cs =>
    have hsize := c.utf8Size_pos
    show 0 < c.utf8Size + byteCount cs
    omega

/-- The cursor stands in a URL: behind as many bytes as its position says, and before the characters
that it has not read. -/
def StandsIn (c : Cursor) (url : String) : Prop :=
  ∃ front : String, url = front ++ String.ofList c.rest ∧ c.position = front.utf8ByteSize

theorem standsIn_start (url : String) : (start url).StandsIn url :=
  ⟨"", by simp [start], rfl⟩

/-- A cursor that stands in a URL is not behind its end, and between two of its characters. -/
theorem StandsIn.isValid {c : Cursor} {url : String} (h : c.StandsIn url) :
    c.position ≤ url.utf8ByteSize ∧ (⟨c.position⟩ : String.Pos.Raw).IsValid url := by
  rcases h with ⟨front, rfl, hposition⟩
  rw [hposition]
  refine ⟨?_, String.Pos.Raw.isValid_iff_exists_append.2 ⟨front, String.ofList c.rest, rfl, rfl⟩⟩
  rw [String.utf8ByteSize_append]
  omega

/-! ## One call -/

/-- A call moves the cursor over some characters, and over at least one when it gives a piece. -/
theorem exists_next_eq (c : Cursor) :
    ∃ read rest, c.rest = read ++ rest ∧ c.next.2 = ⟨c.position + byteCount read, rest⟩ ∧
      (c.next.1.isSome → read ≠ []) := by
  have hslashes : c.rest = c.rest.takeWhile (· = slash) ++ c.skipSlashes.rest :=
    List.takeWhile_append_dropWhile.symm
  cases hrest : c.skipSlashes.rest with
  | nil =>
    -- only slashes were left: the cursor goes to the end of the URL
    have hnext : c.next = (none, c.skipSlashes) := by
      simp [next, hrest]
    rw [hnext]
    refine ⟨_, _, hslashes, rfl, ?_⟩
    intro hsome
    cases hsome
  | cons d ds =>
    have hnext : c.next = (some c.skipSlashes.takePiece.1, c.skipSlashes.takePiece.2) := by
      simp [next, hrest]
    have hpiece : c.skipSlashes.rest = c.skipSlashes.rest.takeWhile (· ≠ slash) ++
        c.skipSlashes.takePiece.2.rest :=
      List.takeWhile_append_dropWhile.symm
    have hall : c.rest = (c.rest.takeWhile (· = slash) ++
        c.skipSlashes.rest.takeWhile (· ≠ slash)) ++ c.skipSlashes.takePiece.2.rest := by
      rw [List.append_assoc, ← hpiece]
      exact hslashes
    rw [hnext]
    refine ⟨_, _, hall, ?_, ?_⟩
    · rw [byteCount_append, ← Nat.add_assoc]
      rfl
    · intro _
      have hd : d ≠ slash := ne_slash_of_skipSlashes hrest
      simp [hrest, hd]

theorem StandsIn.next {c : Cursor} {url : String} (h : c.StandsIn url) : c.next.2.StandsIn url := by
  rcases h with ⟨front, hurl, hposition⟩
  rcases c.exists_next_eq with ⟨read, rest, hread, hnext, -⟩
  rw [hnext]
  refine ⟨front ++ String.ofList read, ?_, ?_⟩
  · rw [hurl, hread, String.ofList_append, String.append_assoc]
  · rw [String.utf8ByteSize_append, hposition, byteCount_eq_utf8ByteSize]

/-- A call that gives a piece moves the cursor on. -/
theorem position_lt_next {c : Cursor} (h : c.next.1.isSome) : c.position < c.next.2.position := by
  rcases c.exists_next_eq with ⟨read, rest, -, hnext, hread⟩
  have hpos := byteCount_pos (hread h)
  rw [hnext]
  show c.position < c.position + byteCount read
  omega

/-! ## Many calls -/

theorem standsIn_after (url : String) (calls : Nat) : ((start url).after calls).StandsIn url := by
  induction calls with
  | zero => exact standsIn_start url
  | succ calls ih =>
    rw [after_succ]
    exact ih.next

/-- The readings up to the end: one for each piece that is left, and one that finds none. -/
def readingsOf (pieces : List String) : List Reading :=
  pieces.map (fun piece => ⟨false, some piece⟩) ++ [⟨true, none⟩]

theorem drain_eq (c : Cursor) : c.drain = (readingsOf c.left, c.after (c.left.length + 1)) := by
  -- by induction on the pieces that are left; a call that gives one leaves the others
  generalize hleft : c.left = pieces
  induction pieces generalizing c with
  | nil =>
    have hnone : c.next.1 = none := by
      rw [c.next_of_left.1, hleft]
      rfl
    have hend : c.atEnd = true := c.atEnd_eq_true_iff.2 hleft
    unfold drain
    split
    case h_1 last hnext =>
      have hlast : c.after 1 = last := congrArg Prod.snd hnext
      rw [hend]
      exact Prod.ext rfl hlast.symm
    case h_2 piece behind hnext =>
      rw [hnext] at hnone
      cases hnone
  | cons piece pieces ih =>
    have hsome : c.next.1 = some piece := by
      rw [c.next_of_left.1, hleft]
      rfl
    have hbehind : c.next.2.left = pieces := by
      rw [c.next_of_left.2, hleft, List.tail_cons]
    have hend : c.atEnd = false := by
      rw [Bool.eq_false_iff, ne_eq, atEnd_iff_next, hsome]
      exact Option.some_ne_none piece
    unfold drain
    split
    case h_1 last hnext =>
      rw [hnext] at hsome
      cases hsome
    case h_2 first behind hnext =>
      rw [hnext] at hsome hbehind
      obtain rfl : first = piece := Option.some.inj hsome
      have hafter : c.after (pieces.length + 1 + 1) = behind.after (pieces.length + 1) := by
        show c.next.2.after (pieces.length + 1) = _
        rw [hnext]
      rw [ih behind hbehind, hend, List.length_cons, hafter]
      rfl

/-- A cursor gives the pieces of its URL one by one and then none any more. After any number of calls
it stands between two characters of the URL or at one of its ends, and a call gives the piece with
this number. The cursor says whether there is one, which it can tell from the bytes that are left,
and a call that gives one moves it on. So reading up to the end takes one call more than there are
pieces. -/
theorem reads_pieces (url : String) :
    (∀ calls : Nat,
      let c := (start url).after calls
      c.StandsIn url ∧
      c.position ≤ url.utf8ByteSize ∧ (⟨c.position⟩ : String.Pos.Raw).IsValid url ∧
      c.next.1 = (pieces url)[calls]? ∧
      (c.atEnd = true ↔ c.next.1 = none) ∧
      (c.atEnd = true ↔ ∀ byte ∈ Text.bytes (String.ofList c.rest), byte = slash.toUInt8) ∧
      (c.next.1 = none → ∀ later, ((start url).after (calls + later)).next.1 = none) ∧
      (c.next.1.isSome → c.position < ((start url).after (calls + 1)).position)) ∧
    (start url).drain =
      (readingsOf (pieces url), (start url).after ((pieces url).length + 1)) ∧
    (start url).drain.1.length = (pieces url).length + 1 := by
  refine ⟨?_, drain_eq (start url), ?_⟩
  · intro calls c
    have hstands : c.StandsIn url := standsIn_after url calls
    have hnext : c.next.1 = (pieces url)[calls]? := next_after calls (start url)
    refine ⟨hstands, hstands.isValid.1, hstands.isValid.2, hnext, c.atEnd_iff_next,
      c.atEnd_iff_bytes, ?_, ?_⟩
    · intro hnone later
      rw [hnext, List.getElem?_eq_none_iff] at hnone
      rw [next_after, left_start, List.getElem?_eq_none_iff]
      omega
    · intro hsome
      rw [after_succ]
      exact position_lt_next hsome
  · rw [drain_eq, left_start, readingsOf, List.length_append, List.length_map]
    rfl

/-- Pieces of more than one byte, between more slashes than one. -/
example :
    (Cursor.start "//é/x/").after 1 = ⟨4, ['/', 'x', '/']⟩ ∧
      (Cursor.start "//é/x/").after 2 = ⟨6, ['/']⟩ ∧
      (Cursor.start "//é/x/").after 3 = ⟨7, []⟩ := by
  decide

end Routing.Url.Cursor
