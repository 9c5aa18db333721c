import Routing.Text.Pieces

/-!
# URLs

The URL of a request is a text. All that routing reads of it is the list of its pieces, which are
taken as they stand: nothing is trimmed and nothing is decoded.

* `pieces` — all pieces at once.
* `Cursor` — a place in a URL. `next` skips slashes and reads one piece; `atEnd` says that only
  slashes are left. Nothing is cut ahead of time, and a cursor is a value: whoever holds one may
  read on from it any number of times.

`Cursor.next_eq` and `Cursor.atEnd_iff` say that reading agrees with cutting the URL at its slashes.
-/

namespace Routing.Url

open Text (slash)

/-- The non-empty pieces of the URL between its slashes, in order. -/
def pieces (url : String) : List String :=
  (Text.pieces url.toList).map String.ofList

/-! ## Reading piece by piece -/

/-- A place in a URL: the number of bytes before it, and the characters after it. -/
structure Cursor where
  position : Nat
  rest : List Char
deriving DecidableEq, Repr

namespace Cursor

/-- The start of a URL. -/
def start (url : String) : Cursor :=
  ⟨0, url.toList⟩

/-- The number of bytes that characters take in UTF-8. -/
def byteCount (cs : List Char) : Nat :=
  cs.foldr (fun c total => c.utf8Size + total) 0

/-- No piece is left to read. -/
def atEnd (c : Cursor) : Bool :=
  c.rest.all (· = slash)

/-- The cursor behind the slashes that it stands before. -/
def skipSlashes (c : Cursor) : Cursor where
  position := c.position + byteCount (c.rest.takeWhile (· = slash))
  rest := c.rest.dropWhile (· = slash)

/-- The characters up to the next slash, and the cursor behind them. -/
def takePiece (c : Cursor) : String × Cursor :=
  let piece := c.rest.takeWhile (· ≠ slash)
  (String.ofList piece, ⟨c.position + byteCount piece, c.rest.dropWhile (· ≠ slash)⟩)

/-- Skip slashes and read one piece; at the end of the URL there is none to read. -/
def next (c : Cursor) : Option String × Cursor :=
  let c := c.skipSlashes
  if c.rest.isEmpty then (none, c)
  else
    let (piece, behind) := c.takePiece
    (some piece, behind)

/-! ## The cursor and the pieces of the URL -/

/-- Behind the slashes stands no slash. -/
theorem ne_slash_of_skipSlashes {c : Cursor} {d : Char} {ds : List Char}
    (h : c.skipSlashes.rest = d :: ds) : d ≠ slash := by
  have hhead := List.head?_dropWhile_not (· = slash) c.rest
  rw [show c.rest.dropWhile (· = slash) = d :: ds from h] at hhead
  simpa using hhead

/-- A call of `next` gives the first piece that is left, and leaves the others. -/
theorem next_eq (c : Cursor) :
    c.next.1 = (Text.pieces c.rest).head?.map String.ofList ∧
      Text.pieces c.next.2.rest = (Text.pieces c.rest).tail := by
  have hskip : Text.pieces c.skipSlashes.rest = Text.pieces c.rest := Text.pieces_dropWhile_slash c.rest
  rw [← hskip]
  unfold next
  cases hrest : c.skipSlashes.rest with
  | nil => simp [hrest]
  | cons d ds =>
    have hd : d ≠ slash := ne_slash_of_skipSlashes hrest
    rw [Text.pieces_cons hd]
    simp [hrest, takePiece, hd]

/-- The cursor is at the end when no piece is left. -/
theorem atEnd_iff (c : Cursor) : c.atEnd = true ↔ Text.pieces c.rest = [] := by
  unfold atEnd
  induction c.rest with
  | nil => simp
  | cons d ds ih =>
    by_cases hd : d = slash
    · simpa [hd] using ih
    · simp [hd, Text.pieces_cons hd]

/-! ## Reading to the end -/

/-- The cursor after `calls` calls of `next`. -/
def after (calls : Nat) (c : Cursor) : Cursor :=
  match calls with
  | 0 => c
  | calls + 1 => after calls c.next.2

/-- A call that gives a piece leaves less to read. -/
theorem length_rest_next (c : Cursor) (h : c.next.1.isSome) :
    c.next.2.rest.length < c.rest.length := by
  have hskip : c.skipSlashes.rest.length ≤ c.rest.length :=
    (List.dropWhile_suffix _).length_le
  unfold next at h ⊢
  cases hrest : c.skipSlashes.rest with
  | nil => simp [hrest] at h
  | cons d ds =>
    have hd : d ≠ slash := ne_slash_of_skipSlashes hrest
    have hdrop : (ds.dropWhile (· ≠ slash)).length ≤ ds.length :=
      (List.dropWhile_suffix _).length_le
    have hlen : ds.length + 1 ≤ c.rest.length := by simpa [hrest] using hskip
    have hshorter : (ds.dropWhile (· ≠ slash)).length < c.rest.length := by omega
    simpa [hrest, takePiece, hd] using hshorter

/-- One call of `next`: whether the cursor was at the end before it, and what it gave. -/
structure Reading where
  atEnd : Bool
  piece : Option String
deriving DecidableEq, Repr

/-- The calls of `next` from here up to the first that gives no piece, and the cursor it leaves. -/
def drain (c : Cursor) : List Reading × Cursor :=
  match _ : c.next with
  | (none, last) => ([⟨c.atEnd, none⟩], last)
  | (some piece, behind) =>
    let (readings, last) := drain behind
    (⟨c.atEnd, some piece⟩ :: readings, last)
termination_by c.rest.length
decreasing_by
  rename_i hnext
  have hshorter := length_rest_next c (by simp [hnext])
  simpa [hnext] using hshorter

end Cursor

end Routing.Url
