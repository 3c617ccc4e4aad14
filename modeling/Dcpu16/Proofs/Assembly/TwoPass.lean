import Dcpu16.Proofs.Assembly.BackPatching

/-! The assembler is the two-pass layout: it gives the words of exactly the programs that can be
laid out, and for every other text the first error, in the order in which lines, references and the
size are looked at. -/

namespace Dcpu16.Assembly

namespace Layout

/-! ### Errors -/

/-- What is wrong with a line that follows these lines; its label is looked at before its
statement. -/
inductive Refused (es : List Entry) (l : Line) : Cause → Prop
  | invalidLabel {name : List Char} : l.label = some name → isIdentifier name = false →
      Refused es l (.invalidLabel (String.ofList name))
  | duplicateLabel {name : List Char} : l.label = some name → isIdentifier name = true →
      labelKey name ∈ labels es → Refused es l (.duplicateLabel (labelKey name))
  | distantLabel {name : List Char} : l.label = some name → isIdentifier name = true →
      labelKey name ∉ labels es → 65536 ≤ size es → Refused es l .programTooLarge
  | statement {label : Option String} {cause : Cause} : Entry.Labels l label → Admits es label →
      l.statement = .error cause → Refused es l cause

/-- What is wrong with a source text: its first bad line, or else its first reference to a label
without definition, or else its size. -/
inductive Rejected (source : List Char) : Error → Prop
  | line {before after : List (List Char)} {text : List Char} {es : List Entry} {cause : Cause} :
      Text.lines source = before ++ text :: after → List.Forall₂ Entry.Reads before es →
      Labelled es → Refused es (Line.ofText text) cause → Rejected source ⟨es.length + 1, cause⟩
  | reference {es : List Entry} {before after : List (String × Nat)} {key : String} {n : Nat} :
      List.Forall₂ Entry.Reads (Text.lines source) es → Labelled es →
      references es = before ++ (key, n) :: after → (∀ r ∈ before, r.1 ∈ labels es) →
      key ∉ labels es → Rejected source ⟨n, .undefinedLabel key⟩
  | size {es : List Entry} : List.Forall₂ Entry.Reads (Text.lines source) es → Labelled es →
      (∀ r ∈ references es, r.1 ∈ labels es) → 65536 < size es →
      Rejected source ⟨0, .programTooLarge⟩

theorem admitted_or_refused (es : List Entry) (text : List Char) :
    (∃ e, Entry.Reads text e ∧ Admits es e.label) ∨
      ∃ cause, Refused es (Line.ofText text) cause := by
  have hstatement {label : Option String} (hlabel : Entry.Labels (Line.ofText text) label)
      (hadmits : Admits es label) : (∃ e, Entry.Reads text e ∧ Admits es e.label) ∨
        ∃ cause, Refused es (Line.ofText text) cause := by
    cases h : (Line.ofText text).statement with
    | error cause => exact .inr ⟨cause, .statement hlabel hadmits h⟩
    | ok s =>
      obtain ⟨c, hc, -⟩ := Line.statement_eq_ok.mp h
      exact .inl ⟨⟨label, c⟩, ⟨hlabel, hc⟩, hadmits⟩
  cases hlabel : (Line.ofText text).label with
  | none => exact hstatement (.none hlabel) nofun
  | some name =>
    by_cases hid : isIdentifier name = true
    · by_cases hnew : labelKey name ∈ labels es
      · exact .inr ⟨_, .duplicateLabel hlabel hid hnew⟩
      · by_cases hsize : 65536 ≤ size es
        · exact .inr ⟨_, .distantLabel hlabel hid hnew hsize⟩
        · refine hstatement (.some hlabel hid) ?_
          rintro _ ⟨⟩
          exact ⟨hnew, by omega⟩
    · exact .inr ⟨_, .invalidLabel hlabel (by simpa using hid)⟩

/-- Either all lines are read and their labels are good, or some line is the first to be refused. -/
theorem labelled_or_refused {es : List Entry} (hes : Labelled es) (texts : List (List Char)) :
    (∃ fs, List.Forall₂ Entry.Reads texts fs ∧ Labelled (es ++ fs)) ∨
      ∃ before text after fs cause, texts = before ++ text :: after ∧
        List.Forall₂ Entry.Reads before fs ∧ Labelled (es ++ fs) ∧
        Refused (es ++ fs) (Line.ofText text) cause := by
  induction texts generalizing es with
  | nil => exact .inl ⟨[], .nil, by rwa [List.append_nil]⟩
  | cons text texts ih =>
    rcases admitted_or_refused es text with ⟨e, hreads, hadmits⟩ | ⟨cause, hrefused⟩
    · rcases ih (labelled_append_singleton.mpr ⟨hes, hadmits⟩) with
        ⟨fs, hfs, hlabelled⟩ | ⟨before, text', after, fs, cause, rfl, hfs, hlabelled, hrefused⟩
      · exact .inl ⟨e :: fs, .cons hreads hfs, by simpa using hlabelled⟩
      · exact .inr ⟨text :: before, text', after, e :: fs, cause, rfl, .cons hreads hfs,
          by simpa using hlabelled, by simpa using hrefused⟩
    · exact .inr ⟨[], text, texts, [], cause, rfl, .nil, by rwa [List.append_nil],
        by rwa [List.append_nil]⟩

end Layout

namespace Draft

open Layout

variable {d : Draft} {es : List Entry}

/-! ### Lines -/

theorem Holds.addLine_of_refused {l : Line} {cause : Cause} (h : d.Holds es)
    (hrefused : Refused es l cause) (n : Nat) : d.addLine l n = .error cause := by
  unfold Draft.addLine
  cases hrefused with
  | invalidLabel hlabel hid =>
    simp only [hlabel, Draft.define, hid]
    rfl
  | duplicateLabel hlabel hid hmem =>
    simp only [hlabel, Draft.define, hid, (h.contains _).mpr hmem]
    rfl
  | distantLabel hlabel hid hnew hsize =>
    have hlarge : Memory.fullSize ≤ d.output.size := h.size_output ▸ hsize
    simp only [hlabel, Draft.define, hid, mt (h.contains _).mp hnew, hlarge]
    rfl
  | statement hlabel hadmits herror =>
    cases hlabel with
    | none hnone =>
      simp only [hnone, herror]
      rfl
    | some hsome hid =>
      obtain ⟨d₁, hd₁, -⟩ := h.define hid hadmits
      simp only [hsome, hd₁, herror]
      rfl

theorem addLines_append (d : Draft) (ls ls' : List (List Char × Nat)) :
    d.addLines (ls ++ ls') = d.addLines ls >>= fun d' => d'.addLines ls' :=
  List.foldlM_append

theorem addLines_cons (d : Draft) (text : List Char) (n : Nat) (ls : List (List Char × Nat)) :
    d.addLines ((text, n) :: ls) =
      (d.addLine (Line.ofText text) n).mapError (fun cause => ⟨n, cause⟩) >>= fun d' =>
        d'.addLines ls :=
  List.foldlM_cons

theorem Holds.addLines {texts : List (List Char)} {fs : List Entry} (h : d.Holds es)
    (hreads : List.Forall₂ Entry.Reads texts fs) (hlabelled : Labelled (es ++ fs)) :
    ∃ d', d.addLines (texts.zipIdx (es.length + 1)) = .ok d' ∧ d'.Holds (es ++ fs) := by
  induction hreads generalizing d es with
  | nil => exact ⟨d, rfl, by rwa [List.append_nil]⟩
  | @cons text e texts fs hread _ ih =>
    obtain ⟨d₁, hd₁, h₁⟩ := h.addLine hread hlabelled.admits
    rw [← List.singleton_append, ← List.append_assoc] at hlabelled
    obtain ⟨d₂, hd₂, h₂⟩ := ih h₁ hlabelled
    refine ⟨d₂, ?_, by simpa using h₂⟩
    rw [List.zipIdx_cons, addLines_cons, hd₁]
    rw [List.length_append] at hd₂
    exact hd₂

/-! ### References -/

/-- Resolving the references of a draft replaces every zero that stands for a label. -/
theorem foldlM_resolve {symbols : Std.HashMap String UInt16} {address : String → UInt16}
    (vs : List (Value × Nat)) (words : List UInt16) (output : Array UInt16)
    (hsymbols : ∀ key ∈ vs.flatMap fun v => v.1.references, symbols[key]? = some (address key))
    (houtput : output.toList = words ++ vs.map fun v => v.1.word fun _ => 0) :
    ∃ output', (notes words.length vs).foldlM (resolve symbols) output = .ok output' ∧
      output'.toList = words ++ vs.map fun v => v.1.word address := by
  induction vs generalizing words output with
  | nil => exact ⟨output, rfl, houtput⟩
  | cons v vs ih =>
    obtain ⟨v, n⟩ := v
    simp only [List.flatMap_cons, List.mem_append] at hsymbols
    have hrest := fun key hkey => hsymbols key (.inr hkey)
    cases v with
    | number w =>
      obtain ⟨output', hfold, hout⟩ := ih (words ++ [w]) output hrest
        (by simpa [Value.word] using houtput)
      refine ⟨output', ?_, by simpa [Value.word] using hout⟩
      simpa [notes] using hfold
    | label key =>
      have hkey := hsymbols key (.inl (List.mem_singleton_self key))
      obtain ⟨output', hfold, hout⟩ := ih (words ++ [address key])
        (output.setIfInBounds words.length (address key)) hrest (by simp [houtput, Value.word])
      refine ⟨output', ?_, by simpa [Value.word] using hout⟩
      rw [notes, List.foldlM_cons, resolve, hkey]
      rw [List.length_append] at hfold
      exact hfold

theorem foldlM_resolve_error {symbols : Std.HashMap String UInt16} {before after : List Reference}
    {r : Reference} (hbefore : ∀ s ∈ before, symbols.contains s.label = true)
    (hr : symbols[r.label]? = none) (output : Array UInt16) :
    (before ++ r :: after).foldlM (resolve symbols) output =
      .error ⟨r.line, .undefinedLabel r.label⟩ := by
  induction before generalizing output with
  | nil =>
    rw [List.nil_append, List.foldlM_cons, resolve, hr]
    rfl
  | cons s before ih =>
    have hs := hbefore s List.mem_cons_self
    rw [Std.HashMap.contains_eq_isSome_getElem?, Option.isSome_iff_exists] at hs
    obtain ⟨a, hs⟩ := hs
    rw [List.cons_append, List.foldlM_cons, resolve, hs]
    exact ih (fun s hs => hbefore s (List.mem_cons_of_mem _ hs)) _

theorem Holds.map_references (h : d.Holds es) :
    (d.references.toList.map fun r => (r.label, r.line)) = Layout.references es := by
  rw [h.references, map_notes, references_cellsFrom]
  rfl

theorem Holds.getElem?_symbols (h : d.Holds es) {key : String} (hkey : key ∈ labels es) :
    d.symbols[key]? = some (address es key) := by
  rw [h.symbols, address]
  cases ha : address? es key with
  | none => exact absurd hkey (address?_eq_none.mp ha)
  | some a => rfl

theorem Holds.resolve (h : d.Holds es) (hdefined : ∀ r ∈ Layout.references es, r.1 ∈ labels es) :
    ∃ output, d.references.toList.foldlM (Draft.resolve d.symbols) d.output = .ok output ∧
      output.toList = image es := by
  rw [h.references, image, ← map_word_cellsFrom 1]
  refine foldlM_resolve (cellsFrom 1 es) [] d.output (fun key hkey => ?_) h.output
  obtain ⟨v, hv, hkey⟩ := List.mem_flatMap.mp hkey
  refine h.getElem?_symbols (hdefined (key, v.2) ?_)
  rw [Layout.references, ← references_cellsFrom]
  exact List.mem_flatMap.mpr ⟨v, hv, List.mem_map.mpr ⟨key, hkey, rfl⟩⟩

theorem Holds.finish (h : d.Holds es) (hdefined : ∀ r ∈ Layout.references es, r.1 ∈ labels es) :
    d.finish = if 65536 < size es then .error ⟨0, .programTooLarge⟩ else .ok (image es) := by
  obtain ⟨output, hoks, himage⟩ := h.resolve hdefined
  have hsize : output.size = size es := by rw [← Array.length_toList, himage, length_image]
  rw [← hsize, ← himage, Draft.finish, hoks]
  rfl

theorem Holds.finish_of_undefined {before after : List (String × Nat)} {key : String} {n : Nat}
    (h : d.Holds es) (hreferences : Layout.references es = before ++ (key, n) :: after)
    (hbefore : ∀ r ∈ before, r.1 ∈ labels es) (hkey : key ∉ labels es) :
    d.finish = .error ⟨n, .undefinedLabel key⟩ := by
  obtain ⟨rs, rest, hrs, rfl, hrest⟩ :=
    List.map_eq_append_iff.mp (h.map_references.trans hreferences)
  obtain ⟨r, rs', rfl, ⟨⟩, -⟩ := List.map_eq_cons_iff.mp hrest
  have hr : d.symbols[r.label]? = none := by
    rw [h.symbols, address?_eq_none.mpr hkey, Option.map_none]
  unfold Draft.finish
  rw [hrs, foldlM_resolve_error (fun s hs => ?_) hr]
  · rfl
  · exact (h.contains _).mpr (hbefore _ (List.mem_map.mpr ⟨s, hs, rfl⟩))

theorem exists_addLines {texts : List (List Char)} (hreads : List.Forall₂ Entry.Reads texts es)
    (hes : Labelled es) :
    ∃ d : Draft, ({} : Draft).addLines (texts.zipIdx 1) = .ok d ∧ d.Holds es :=
  holds_nil.addLines hreads hes

end Draft

/-! ### Programs -/

open Layout

theorem assemble_of_wellFormed {source : List Char} {es : List Entry}
    (hreads : List.Forall₂ Entry.Reads (Text.lines source) es) (hes : WellFormed es) :
    assemble source = .ok (image es) := by
  obtain ⟨d, hd, h⟩ := Draft.exists_addLines hreads hes.toLabelled
  rw [assemble, hd]
  exact (h.finish hes.defined).trans (if_neg (Nat.not_lt.mpr hes.fits))

theorem assemble_of_rejected {source : List Char} {err : Error} (hrejected : Rejected source err) :
    assemble source = .error err := by
  unfold assemble
  cases hrejected with
  | line hlines hreads hes hrefused =>
    obtain ⟨d, hd, h⟩ := Draft.exists_addLines hreads hes
    rw [hlines, List.zipIdx_append, Draft.addLines_append, hd, List.zipIdx_cons, hreads.length_eq,
      Nat.add_comm 1]
    change (Draft.addLines d _ >>= Draft.finish) = _
    rw [Draft.addLines_cons, h.addLine_of_refused hrefused]
    rfl
  | reference hreads hes hreferences hbefore hkey =>
    obtain ⟨d, hd, h⟩ := Draft.exists_addLines hreads hes
    rw [hd]
    exact h.finish_of_undefined hreferences hbefore hkey
  | size hreads hes hdefined hsize =>
    obtain ⟨d, hd, h⟩ := Draft.exists_addLines hreads hes
    rw [hd]
    exact (h.finish hdefined).trans (if_pos hsize)

/-- Every source text can be laid out or has a first error. -/
theorem wellFormed_or_rejected (source : List Char) :
    (∃ es, List.Forall₂ Entry.Reads (Text.lines source) es ∧ WellFormed es) ∨
      ∃ err, Rejected source err := by
  rcases labelled_or_refused Labelled.nil (Text.lines source) with
    ⟨es, hreads, hes⟩ | ⟨before, text, after, es, cause, hlines, hreads, hes, hrefused⟩
  · cases hfind : (references es).find? (fun r => r.1 ∉ labels es) with
    | none =>
      have hdefined : ∀ r ∈ references es, r.1 ∈ labels es := by simpa using hfind
      by_cases hsize : size es ≤ 65536
      · exact .inl ⟨es, hreads, hes, hdefined, hsize⟩
      · exact .inr ⟨_, .size hreads hes hdefined (Nat.not_le.mp hsize)⟩
    | some r =>
      obtain ⟨hkey, before, after, hreferences, hbefore⟩ := List.find?_eq_some_iff_append.mp hfind
      exact .inr
        ⟨_, .reference hreads hes hreferences (by simpa using hbefore) (by simpa using hkey)⟩
  · exact .inr ⟨_, .line hlines hreads hes hrefused⟩

theorem lines_unique {source : List Char} {es fs : List Entry}
    (hes : List.Forall₂ Entry.Reads (Text.lines source) es)
    (hfs : List.Forall₂ Entry.Reads (Text.lines source) fs) : es = fs :=
  List.right_unique_forall₂' (fun _ _ _ he hf => he.unique hf) hes hfs

theorem wellFormed_of_assemble {source : List Char} {ws : List UInt16} {es : List Entry}
    (hws : assemble source = .ok ws) (hreads : List.Forall₂ Entry.Reads (Text.lines source) es) :
    WellFormed es ∧ image es = ws := by
  rcases wellFormed_or_rejected source with ⟨es', hreads', hes⟩ | ⟨err, hrejected⟩
  · obtain rfl := lines_unique hreads hreads'
    exact ⟨hes, Except.ok.inj ((assemble_of_wellFormed hreads hes).symm.trans hws)⟩
  · cases hws.symm.trans (assemble_of_rejected hrejected)

theorem exists_of_assemble {source : List Char} {ws : List UInt16}
    (hws : assemble source = .ok ws) :
    ∃ es, List.Forall₂ Entry.Reads (Text.lines source) es ∧ WellFormed es ∧ image es = ws := by
  rcases wellFormed_or_rejected source with ⟨es, hreads, -⟩ | ⟨err, hrejected⟩
  · exact ⟨es, hreads, wellFormed_of_assemble hws hreads⟩
  · cases hws.symm.trans (assemble_of_rejected hrejected)

/-- The assembler gives the words of the programs that can be laid out, and for every other text the
error for which it is rejected. -/
theorem assemble_two_pass (source : List Char) :
    (∀ ws, assemble source = .ok ws ↔
      ∃ es, List.Forall₂ Entry.Reads (Text.lines source) es ∧ WellFormed es ∧ image es = ws) ∧
    (∀ err, assemble source = .error err ↔ Rejected source err) := by
  refine ⟨fun ws => ⟨fun hws => ?_, ?_⟩, fun err => ⟨fun herr => ?_, assemble_of_rejected⟩⟩
  · rcases wellFormed_or_rejected source with ⟨es, hreads, hes⟩ | ⟨err, hrejected⟩
    · exact ⟨es, hreads, hes, Except.ok.inj ((assemble_of_wellFormed hreads hes).symm.trans hws)⟩
    · cases hws.symm.trans (assemble_of_rejected hrejected)
  · rintro ⟨es, hreads, hes, rfl⟩
    exact assemble_of_wellFormed hreads hes
  · rcases wellFormed_or_rejected source with ⟨es, hreads, hes⟩ | ⟨err', hrejected⟩
    · cases herr.symm.trans (assemble_of_wellFormed hreads hes)
    · rwa [Except.error.inj (herr.symm.trans (assemble_of_rejected hrejected))]

end Dcpu16.Assembly
