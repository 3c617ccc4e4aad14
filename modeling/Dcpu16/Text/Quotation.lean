/-! Quotation marks.  A mark opens a quotation or closes the open one; a scanner that looks for
punctuation skips what stands in a quotation. -/

namespace Dcpu16.Text

/-- Each character with whether it stands in a quotation, an open quotation at the start being given
by `inside`.  The opening mark is outside and the closing mark inside. -/
def quotedFrom (inside : Bool) (cs : List Char) : List (Char × Bool) :=
  (cs.foldl (fun (done, inside) c => ((c, inside) :: done, inside != (c == '"')))
    (([] : List (Char × Bool)), inside)).1.reverse

/-- Each character of a text with whether it stands in a quotation. -/
def quoted (cs : List Char) : List (Char × Bool) := quotedFrom false cs

/-- The text before the first `c` outside quotations. -/
def before (c : Char) (cs : List Char) : List Char :=
  ((quoted cs).takeWhile fun (d, inside) => inside || d != c).map Prod.fst

/-- The pieces of a text between the occurrences of `c` outside quotations. -/
def splitOutside (c : Char) (cs : List Char) : List (List Char) :=
  ((quoted cs).splitOnP fun (d, inside) => !inside && d == c).map (·.map Prod.fst)

theorem quotedFrom_foldl (cs : List Char) (done : List (Char × Bool)) (inside : Bool) :
    (cs.foldl (fun (done, inside) c => ((c, inside) :: done, inside != (c == '"')))
      (done, inside)).1.reverse = done.reverse ++ quotedFrom inside cs := by
  induction cs generalizing done inside with
  | nil => simp [quotedFrom]
  | cons c cs ih =>
    simp only [quotedFrom, List.foldl_cons]
    rw [ih, ih [(c, inside)]]
    simp

@[simp] theorem quotedFrom_nil (inside : Bool) : quotedFrom inside [] = [] := rfl

@[simp] theorem quotedFrom_cons (inside : Bool) (c : Char) (cs : List Char) :
    quotedFrom inside (c :: cs) = (c, inside) :: quotedFrom (inside != (c == '"')) cs := by
  have h := quotedFrom_foldl cs [(c, inside)] (inside != (c == '"'))
  simpa [quotedFrom] using h

theorem map_fst_quotedFrom (inside : Bool) (cs : List Char) :
    (quotedFrom inside cs).map Prod.fst = cs := by
  induction cs generalizing inside with
  | nil => rfl
  | cons c cs ih => simp [ih]

end Dcpu16.Text
