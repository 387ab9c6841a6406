import SchemaForm.Proofs.Html.Reader

/-!
# Markup that is read again

Markup is written as a tree, and a reader has to find the tree again in the characters. It does so if no part
of the markup comes from elsewhere, and if no two texts follow each other.

* `Tidy` — markup of which that is true;
* `Tidy.scanFrom_writeAll`, `scan_writeAll` — it is read as what it was;
* `Tidy.nested_tokensOfAll`, `Tidy.runs_tokensOfAll`, `Tidy.rawValues_tokensOfAll` — what a reader finds in
  it.
-/

namespace SchemaForm.Html

/-! ## Tidy markup -/

/-- Markup of names that are names, with nothing from elsewhere, and with text only where an element
begins. With `lead` the markup itself may begin with text. -/
inductive Tidy : Bool → List Markup → Prop where
  | nil {lead : Bool} : Tidy lead []
  | text {s : String} {rest : List Markup} (hrest : Tidy false rest) : Tidy true (.text s :: rest)
  | element {lead : Bool} {tag : String} {attributes : List Attribute} {content rest : List Markup}
      (htag : isName tag = true) (hfull : isVoid tag = false)
      (hattributes : ∀ a ∈ attributes, isName a.name = true) (hcontent : Tidy true content)
      (hrest : Tidy false rest) : Tidy lead (.element tag attributes content :: rest)
  | void {lead : Bool} {tag : String} {attributes : List Attribute} {rest : List Markup}
      (htag : isName tag = true) (hvoid : isVoid tag = true)
      (hattributes : ∀ a ∈ attributes, isName a.name = true) (hrest : Tidy false rest) :
      Tidy lead (.void tag attributes :: rest)

namespace Tidy

variable {lead : Bool} {parts others : List Markup}

theorem leading (h : Tidy false parts) : Tidy lead parts := by
  cases h with
  | nil => exact .nil
  | element htag hfull hattributes hcontent hrest =>
    exact .element htag hfull hattributes hcontent hrest
  | void htag hvoid hattributes hrest => exact .void htag hvoid hattributes hrest

theorem append (h : Tidy lead parts) (hothers : Tidy false others) : Tidy lead (parts ++ others) := by
  induction h with
  | nil => exact hothers.leading
  | text _ ih => exact .text ih
  | element htag hfull hattributes hcontent _ _ ih =>
    exact .element htag hfull hattributes hcontent ih
  | void htag hvoid hattributes _ ih => exact .void htag hvoid hattributes ih

end Tidy

namespace Markup

mutual

/-- The tokens of a part. -/
def tokens : Markup → List Token
  | .text s => flush (escape s)
  | .element tag attributes content =>
    .opening tag (attributes.map Attribute.raw) :: (tokensOfAll content ++ [.closing tag])
  | .void tag attributes => [.opening tag (attributes.map Attribute.raw)]
  | .raw html => flush html.toList

/-- The tokens of parts that follow each other. -/
def tokensOfAll : List Markup → List Token
  | [] => []
  | part :: rest => tokens part ++ tokensOfAll rest

end

end Markup

open Markup

/-- What follows does not go on with a run of text. -/
def EndsText (rest : List Char) : Prop := ∀ c ∈ rest.head?, c = '<'

theorem scanFrom_run_of_endsText (run : List Char) (h : EndsText rest) :
    scanFrom (.text run) rest = (scanFrom (.text []) rest).map (flush run ++ ·) := by
  cases rest with
  | nil => simp [scanFrom, flush]
  | cons c rest =>
    obtain rfl : c = '<' := h c rfl
    exact scanFrom_run run rest

theorem Tidy.endsText {parts : List Markup} (h : Tidy false parts) (hrest : EndsText rest) :
    EndsText (writeAll parts ++ rest) := by
  cases h with
  | nil => simpa using hrest
  | element => simp [EndsText, writeAll, write, openingTag]
  | void => simp [EndsText, writeAll, write, openingTag]

/-- Tidy markup is read as what it was, whatever follows it. -/
theorem Tidy.scanFrom_writeAll {lead : Bool} {parts : List Markup} (h : Tidy lead parts)
    {rest : List Char} (hrest : EndsText rest) :
    scanFrom (.text []) (writeAll parts ++ rest) =
      (scanFrom (.text []) rest).map (tokensOfAll parts ++ ·) := by
  induction h generalizing rest with
  | nil => simp [tokensOfAll]
  | @text s others hothers ih =>
    have hwritten := hothers.endsText hrest
    rw [writeAll, write, List.append_assoc, scanFrom_text (clean_escape s).1, List.nil_append,
      scanFrom_run_of_endsText _ hwritten, ih hrest]
    simp [tokensOfAll, tokens, Function.comp_def]
  | @element _ tag attributes content others htag _ hattributes _ _ ihcontent ihothers =>
    have hclosing : EndsText (closingTag tag ++ (writeAll others ++ rest)) := by
      simp [EndsText, closingTag]
    have hwritten : writeAll (.element tag attributes content :: others) ++ rest =
        openingTag tag attributes ++
          (writeAll content ++ (closingTag tag ++ (writeAll others ++ rest))) := by
      simp [writeAll, write]
    rw [hwritten, scanFrom_openingTag [] htag hattributes, ihcontent hclosing,
      scanFrom_closingTag [] htag, ihothers hrest]
    simp [tokensOfAll, tokens, flush, Function.comp_def]
  | @void _ tag attributes others htag _ hattributes _ ih =>
    rw [writeAll, write, List.append_assoc, scanFrom_openingTag [] htag hattributes, ih hrest]
    simp [tokensOfAll, tokens, flush, Function.comp_def]

/-- Tidy markup is read as what it was. -/
theorem scan_writeAll {parts : List Markup} (h : Tidy true parts) :
    scan (String.ofList (writeAll parts)) = some (tokensOfAll parts) := by
  have hend : EndsText [] := by simp [EndsText]
  have hscan := h.scanFrom_writeAll hend
  rw [scan, String.toList_ofList, ← List.append_nil (writeAll parts), hscan]
  simp [scanFrom, flush]

/-! ## What a reader finds -/

namespace Markup

mutual

/-- The texts of a part. -/
def texts : Markup → List String
  | .text s => [s]
  | .element _ _ content => textsOfAll content
  | .void _ _ => []
  | .raw _ => []

/-- The texts of parts that follow each other. -/
def textsOfAll : List Markup → List String
  | [] => []
  | part :: rest => texts part ++ textsOfAll rest

end

mutual

/-- The values of the attributes of a part. -/
def values : Markup → List String
  | .text _ => []
  | .element _ attributes content => attributes.filterMap Attribute.value ++ valuesOfAll content
  | .void _ attributes => attributes.filterMap Attribute.value
  | .raw _ => []

/-- The values of the attributes of parts that follow each other. -/
def valuesOfAll : List Markup → List String
  | [] => []
  | part :: rest => values part ++ valuesOfAll rest

end

variable (parts others : List Markup)

theorem tokensOfAll_append :
    tokensOfAll (parts ++ others) = tokensOfAll parts ++ tokensOfAll others := by
  induction parts with
  | nil => rfl
  | cons part rest ih => simp [tokensOfAll, ih]

theorem textsOfAll_append : textsOfAll (parts ++ others) = textsOfAll parts ++ textsOfAll others := by
  induction parts with
  | nil => rfl
  | cons part rest ih => simp [textsOfAll, ih]

theorem valuesOfAll_append :
    valuesOfAll (parts ++ others) = valuesOfAll parts ++ valuesOfAll others := by
  induction parts with
  | nil => rfl
  | cons part rest ih => simp [valuesOfAll, ih]

end Markup

theorem nested_flush (stack : List String) (run : List Char) (more : List Token) :
    nested stack (flush run ++ more) = nested stack more := by
  unfold flush
  split <;> simp [nested]

theorem escape_eq_nil_iff {s : String} : escape s = [] ↔ s = "" := by
  constructor
  · intro h
    have hunescaped := unescape_escape s
    rw [h] at hunescaped
    exact String.toList_eq_nil_iff.mp hunescaped.symm
  · rintro rfl
    rfl

theorem runs_flush_escape (s : String) :
    runs (flush (escape s)) = ([s].filter (· ≠ "")).map escape := by
  unfold flush
  by_cases hs : s = "" <;> simp [escape_eq_nil_iff, hs, runs]

@[simp] theorem rawValues_flush (run : List Char) : rawValues (flush run) = [] := by
  unfold flush
  split <;> simp [rawValues]

@[simp] theorem outline_flush (run : List Char) : outline (flush run) = [] := by
  unfold flush
  split <;> simp [outline]

theorem filterMap_value_raw (attributes : List Attribute) :
    (attributes.map Attribute.raw).filterMap RawAttribute.value =
      (attributes.filterMap Attribute.value).map escape := by
  induction attributes with
  | nil => rfl
  | cons a rest ih =>
    obtain ⟨name, value⟩ := a
    rw [List.map_cons, List.filterMap_cons, List.filterMap_cons, ih]
    cases value <;> rfl

namespace Tidy

variable {lead : Bool} {parts : List Markup}

/-- Tidy markup closes what it opens, and nothing else. -/
theorem nested_append (h : Tidy lead parts) (stack : List String) (more : List Token) :
    nested stack (tokensOfAll parts ++ more) = nested stack more := by
  induction h generalizing stack more with
  | nil => rfl
  | text _ ih => rw [tokensOfAll, tokens, List.append_assoc, nested_flush, ih]
  | element _ hfull _ _ _ ihcontent ihrest =>
    simp [tokensOfAll, tokens, nested, hfull, ihcontent, ihrest]
  | void _ hvoid _ _ ih => simp [tokensOfAll, tokens, nested, hvoid, ih]

theorem nested_tokensOfAll (h : Tidy lead parts) : nested [] (tokensOfAll parts) = true := by
  have hnested := h.nested_append [] []
  rwa [List.append_nil] at hnested

/-- Every run of text is one of the texts, and only empty texts are missing. -/
theorem runs_tokensOfAll (h : Tidy lead parts) :
    runs (tokensOfAll parts) = ((textsOfAll parts).filter (· ≠ "")).map escape := by
  induction h with
  | nil => rfl
  | @text s _ _ ih =>
    by_cases hs : s = "" <;> simp [tokensOfAll, tokens, textsOfAll, texts, runs_flush_escape, ih, hs]
  | element _ _ _ _ _ ihcontent ihrest =>
    simp [tokensOfAll, tokens, textsOfAll, texts, runs, ihcontent, ihrest]
  | void _ _ _ _ ih => simp [tokensOfAll, tokens, textsOfAll, texts, runs, ih]

/-- Every value of an attribute is what was given for it. -/
theorem rawValues_tokensOfAll (h : Tidy lead parts) :
    rawValues (tokensOfAll parts) = (valuesOfAll parts).map escape := by
  induction h with
  | nil => rfl
  | text _ ih => simp [tokensOfAll, tokens, valuesOfAll, values, ih]
  | element _ _ _ _ _ ihcontent ihrest =>
    simp only [tokensOfAll, tokens, valuesOfAll, values, List.cons_append, List.nil_append, rawValues,
      rawValues_append, filterMap_value_raw, ihcontent, ihrest, List.map_append, List.append_assoc]
  | void _ _ _ _ ih =>
    simp only [tokensOfAll, tokens, valuesOfAll, values, List.cons_append, List.nil_append, rawValues,
      filterMap_value_raw, ih, List.map_append]

end Tidy

end SchemaForm.Html
