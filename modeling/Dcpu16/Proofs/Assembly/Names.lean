import Dcpu16.Proofs.Assembly.Boundaries
import Dcpu16.Proofs.Assembly.Execution
import Dcpu16.Proofs.Assembly.Positions
import Dcpu16.Proofs.Assembly.Spelling

/-! Names of labels as operands.  A name that no operand has for itself is read as the address of
its label, in an extension word, wherever it stands; but the name of a register or another operand
can be defined as a label as well, and then it is read as that operand and not as the label. -/

namespace Dcpu16.Assembly

open Layout Text

/-! ### What names stand for -/

/-- The operands other than labels that are written as a name, by the name in upper case. -/
def reservedOperands : List (String × Operand) :=
  Form.named.map (fun p => (p.1, p.2.operand)) ++ Register.all.map fun r => (r.name, .register r)

def reservedRegisters : List (String × Register) := Register.all.map fun r => (r.name, r)

/-- The operand, with its extension words, that the name of a label stands for. -/
def nameOperand (name : List Char) (address : UInt16) : Operand × List UInt16 :=
  match reservedOperands.lookup (labelKey name) with
  | some x => (x, [])
  | none => (.next, [address])

/-- The operand, with its extension words, that the name of a label in brackets stands for. -/
def nameCell (name : List Char) (address : UInt16) : Operand × List UInt16 :=
  match reservedRegisters.lookup (labelKey name) with
  | some r => (.indirect r, [])
  | none => (.nextCell, [address])

/-- The operand has a code, and it has as many extension words as it takes. -/
structure Whole (x : Operand × List UInt16) : Prop where
  fits : x.1.Fits
  length : x.2.length = x.1.extraWords

/-- If the text is the name, in any case, or that in brackets, then the operand is `alone` or
`cell`. -/
structure Denotes (name : List Char) (alone cell : Operand × List UInt16) (text : List Char)
    (x : Operand × List UInt16) : Prop where
  of_name : upper text = upper name → x = alone
  of_bracketed {gap gap' inner : List Char} : text = '[' :: (gap ++ inner ++ gap') ++ [']'] →
    IsGap gap → IsGap gap' → upper inner = upper name → x = cell

/-! ### Readings -/

section Reading

variable {name text : List Char} {address : String → UInt16} {f : Form}

/-- How an operand is encoded: its value code and its extension words. -/
def Form.encoded (address : String → UInt16) (f : Form) : Operand × List UInt16 :=
  (f.operand, f.extension address)

theorem Form.whole_encoded (address : String → UInt16) (f : Form) : Whole (f.encoded address) where
  fits := f.fits_operand
  length := (f.length_extension address).trans f.extraWords_operand.symm

theorem upper_key (hid : isIdentifier name = true) : upper name = (labelKey name).toList := by
  rw [labelKey, String.toList_ofList, upper_of_isIdentifier hid]
  rfl

theorem ofName?_upper {r : Register} (hid : isIdentifier name = true) :
    Register.ofName? (upper name) = some r ↔ labelKey name = r.name := by
  have htwice : (name.map Char.toUpper).map Char.toUpper = name.map Char.toUpper :=
    upperAscii_map_toUpper name
  rw [ofName?_eq_some, upper_of_isIdentifier hid, trim_map_toUpper,
    (isSolid_of_isIdentifier hid).trim, htwice, ← upper_of_isIdentifier hid, upper_key hid,
    String.toList_inj]

theorem Term.reads_upper {t : Term} (hid : isIdentifier name = true) :
    Term.Reads (upper name) t ↔ t = .label (labelKey name) := by
  have hname : Term.Reads name (.label (labelKey name)) := by
    have htrim := (isSolid_of_isIdentifier hid).trim
    have hreads : Term.Reads name (.label (labelKey (trim name))) :=
      .label (htrim.symm ▸ numeral?_of_isIdentifier hid) (htrim.symm ▸ hid)
    rwa [htrim] at hreads
  rw [upper_of_isIdentifier hid, Term.reads_toUpper]
  constructor
  · exact fun h => h.unique hname
  · rintro rfl
    exact hname

theorem lookup_reservedRegisters (key : String) (r : Register) :
    reservedRegisters.lookup key = some r ↔ key = r.name := by
  constructor
  · intro h
    obtain ⟨before, after, hsplit, -⟩ := List.lookup_eq_some_iff.mp h
    have hmem : (key, r) ∈ reservedRegisters := by
      rw [hsplit]
      simp
    obtain ⟨r', -, heq⟩ := List.mem_map.mp hmem
    obtain ⟨rfl, rfl⟩ := Prod.mk.inj heq
    rfl
  · rintro rfl
    cases r <;> decide

theorem lookup_named : ∀ p ∈ Form.named,
    reservedOperands.lookup p.1 = some p.2.operand ∧ p.2.extension? = none := by
  decide

theorem lookup_reservedOperands (hbare : Form.Bare (upper name)) (hid : isIdentifier name = true)
    (hr : Register.ofName? (upper name) = none) :
    reservedOperands.lookup (labelKey name) = none := by
  rw [List.lookup_eq_none_iff]
  intro p hp
  rw [bne_iff_ne]
  intro hkey
  rcases List.mem_append.mp hp with hp | hp
  · obtain ⟨⟨key, f⟩, hf, rfl⟩ := List.mem_map.mp hp
    apply hbare.2 f
    rw [upper_key hid, String.ofList_toList, hkey]
    exact hf
  · obtain ⟨r, -, rfl⟩ := List.mem_map.mp hp
    cases hr.symm.trans ((ofName?_upper hid).mpr hkey)

/-- A name alone is read as what it is reserved for, or else as the label. -/
theorem Form.encoded_of_name (hid : isIdentifier name = true) (htext : upper text = upper name)
    (h : Form.Reads text f) :
    f.encoded address = nameOperand name (address (labelKey name)) := by
  cases h with
  | address hopen =>
    rw [htext, upper_of_isIdentifier hid] at hopen
    have hmem : '[' ∈ name := by
      rw [← mem_map_toUpper (by decide), hopen]
      simp
    exact absurd hmem (not_mem_of_isIdentifier hid (by decide))
  | named hnamed =>
    rw [htext, upper_key hid, String.ofList_toList] at hnamed
    obtain ⟨hlookup, hextension⟩ := lookup_named _ hnamed
    rw [nameOperand, hlookup, Form.encoded, Form.extension, hextension]
    rfl
  | @register r _ hr =>
    rw [htext] at hr
    have hkey := (ofName?_upper hid).mp hr
    rw [nameOperand, hkey]
    cases r <;> rfl
  | @term t hbare hr ht =>
    rw [htext] at hbare hr ht
    obtain rfl := (Term.reads_upper hid).mp ht
    rw [nameOperand, lookup_reservedOperands hbare hid hr]
    rfl

/-- A name in brackets is read as the register of that name, or else as the label. -/
theorem Form.encoded_of_bracketed {gap gap' inner : List Char} (hid : isIdentifier name = true)
    (hgap : IsGap gap) (hgap' : IsGap gap') (hinner : upper inner = upper name)
    (h : Form.Reads ('[' :: (gap ++ inner ++ gap') ++ [']']) f) :
    f.encoded address = nameCell name (address (labelKey name)) := by
  have hplus : '+' ∉ upper name := by
    rw [plus_mem_upper]
    exact not_mem_of_isIdentifier hid (by decide)
  rw [Form.reads_bracketed, upper_append, upper_append, hgap.upper, hgap'.upper, hinner,
    Form.addresses_gap hgap hgap'] at h
  cases h with
  | offsetAfter heq | offsetBefore heq => exact absurd (by simp [heq]) hplus
  | @indirect r _ hr =>
    have hkey := (ofName?_upper hid).mp hr
    rw [nameCell, (lookup_reservedRegisters _ r).mpr hkey]
    rfl
  | @cell t _ hr ht =>
    obtain rfl := (Term.reads_upper hid).mp ht
    have hnone : reservedRegisters.lookup (labelKey name) = none := by
      rw [Option.eq_none_iff_forall_ne_some]
      intro r hlookup
      have hkey := (lookup_reservedRegisters _ r).mp hlookup
      cases hr.symm.trans ((ofName?_upper hid).mpr hkey)
    rw [nameCell, hnone]
    rfl

theorem denotes_encoded (hid : isIdentifier name = true) (h : Form.Reads text f) :
    Denotes name (nameOperand name (address (labelKey name)))
      (nameCell name (address (labelKey name))) text (f.encoded address) := by
  constructor
  · intro htext
    exact f.encoded_of_name hid htext h
  · rintro gap gap' inner rfl hgap hgap' hinner
    exact f.encoded_of_bracketed hid hgap hgap' hinner h

end Reading

/-! ### Programs -/

/-- In a program that is assembled, the name of a label stands for the address of the label in
every operand, unless it is the name of another operand.  The words of a line are those of its
instruction and, behind it, the extension words that its operands take. -/
theorem operands_of_label {source : List Char} {ws : List UInt16} {before after : List (List Char)}
    {l name : List Char} (hws : assemble source = .ok ws)
    (hlines : lines source = before ++ l :: after) (hlabel : (Line.ofText l).label = some name) :
    ∃ a, Occupy before a ∧ a < 65536 ∧
      ∀ {before' after' : List (List Char)} {l' word rest left right : List Char} {op : Opcode},
        lines source = before' ++ l' :: after' → splitWord (Line.ofText l').body = (word, rest) →
        Opcode.ofMnemonic? (upper word) = some op → pieces ',' rest = [left, right] →
        ∃ p x y, Occupy before' p ∧ Whole x ∧ Whole y ∧
          (Instruction.encode ⟨op, x.1, y.1⟩ :: (x.2 ++ y.2)) <+: ws.drop p ∧
          Denotes name (nameOperand name (.ofNat a)) (nameCell name (.ofNat a)) left x ∧
          Denotes name (nameOperand name (.ofNat a)) (nameCell name (.ofNat a)) right y := by
  obtain ⟨es, hreads, hes, rfl⟩ := exists_of_assemble hws
  obtain ⟨fs, e, gs, rfl, hbefore, he⟩ := exists_entry hreads hlines
  obtain ⟨key, hkey, hid, hname⟩ : ∃ key, e.label = some key ∧ isIdentifier name = true ∧
      key = labelKey name := by
    obtain ⟨label, clause⟩ := e
    cases he.1 with
    | none hnone => cases hlabel.symm.trans hnone
    | some hsome hid =>
      obtain rfl := Option.some.inj (hlabel.symm.trans hsome)
      exact ⟨_, rfl, hid, rfl⟩
  subst hname
  have haddress := address?_label hes hkey
  refine ⟨size fs, ⟨fs, hbefore, rfl⟩, hes.near _ _ haddress, ?_⟩
  intro before' after' l' word rest left right op hlines' hsplit hop hpieces
  obtain ⟨fs', e', gs', hsame, hbefore', he'⟩ := exists_entry hreads hlines'
  obtain ⟨x, y, hclause, hleft, hright⟩ := Entry.clause_of_instruction he' hsplit hop hpieces
  have hwords := words_prefix_image fs' gs' e'
  rw [← hsame, Entry.words, hclause] at hwords
  have hword : address (fs ++ e :: gs) (labelKey name) = .ofNat (size fs) := by
    rw [address, haddress]
    rfl
  refine ⟨size fs', x.encoded (address (fs ++ e :: gs)), y.encoded (address (fs ++ e :: gs)),
    ⟨fs', hbefore', rfl⟩, x.whole_encoded _, y.whole_encoded _, hwords, ?_, ?_⟩
  · rw [← hword]
    exact denotes_encoded hid hleft
  · rw [← hword]
    exact denotes_encoded hid hright

/-- A jump to a label in other letters than it is defined with. -/
theorem operands_of_label_start :
    assemble ":start SET PC, START".toList = .ok [0x7DC1, 0] ∧
      ∃ x y, Whole x ∧ (Instruction.encode ⟨.set, x.1, y.1⟩ :: (x.2 ++ y.2)) <+: [0x7DC1, 0] ∧
        x = (.pc, []) ∧ y = (.next, [0]) := by
  have hlines : lines ":start SET PC, START".toList = [":start SET PC, START".toList] := by decide
  have hreads : List.Forall₂ Entry.Reads (lines ":start SET PC, START".toList)
      [⟨some "START", some (.instruction .set .pc (.term (.label "START")))⟩] := by
    have hlabel : Entry.Labels (Line.ofText ":start SET PC, START".toList) (some "START") :=
      @Entry.Labels.some _ "start".toList rfl rfl
    have hname : Form.Reads "START".toList (.term (.label "START")) :=
      .term (Form.bare_iff.mpr ⟨rfl, rfl⟩) rfl (.label rfl rfl)
    rw [hlines]
    exact .cons ⟨hlabel, .some (by decide)
      (.instruction rfl rfl rfl (by decide) (by decide) (.named (by decide)) hname)⟩ .nil
  have hws : assemble ":start SET PC, START".toList = .ok [0x7DC1, 0] :=
    assemble_of_wellFormed hreads (wellFormed_of_size_lt (by decide) (by decide) (by decide))
  obtain ⟨a, ha, -, hall⟩ :=
    @operands_of_label _ _ [] [] _ "start".toList hws hlines rfl
  obtain ⟨p, ⟨x, xs⟩, y, hp, hx, hy, hwords, -, hstart⟩ := @hall [] [] _ "SET".toList
    "PC, START".toList "PC".toList "START".toList .set hlines rfl rfl rfl
  obtain rfl := occupy_nil.mp ha
  obtain rfl := occupy_nil.mp hp
  obtain rfl : y = (.next, [0]) := hstart.of_name rfl
  -- the instruction word tells the other operand
  have hword : Instruction.encode ⟨.set, x, .next⟩ = 0x7DC1 :=
    (List.cons_prefix_cons.mp hwords).1
  have hdecode := Instruction.decode_encode (i := ⟨.set, x, .next⟩) ⟨hx.fits, hy.fits⟩
  have hpc : Instruction.decode 0x7DC1 = .ok ⟨.set, .pc, .next⟩ := by rfl
  rw [hword, hpc] at hdecode
  obtain rfl : .pc = x := congrArg Instruction.a (Except.ok.inj hdecode)
  obtain rfl : xs = [] := List.length_eq_zero_iff.mp hx.length
  exact ⟨hws, _, _, hx, hwords, rfl, rfl⟩

/-- Every operand that is the name of a label stands for the address of the label. -/
def ReachesLabels (source : List Char) : Prop :=
  ∀ {ws : List UInt16} {before after : List (List Char)} {l name : List Char},
    assemble source = .ok ws → lines source = before ++ l :: after →
    (Line.ofText l).label = some name →
    ∃ a, Occupy before a ∧
      ∀ {before' after' : List (List Char)} {l' word rest left right : List Char} {op : Opcode},
        lines source = before' ++ l' :: after' → splitWord (Line.ofText l').body = (word, rest) →
        Opcode.ofMnemonic? (upper word) = some op → pieces ',' rest = [left, right] →
        ∃ p x y, Occupy before' p ∧ Whole x ∧ Whole y ∧
          (Instruction.encode ⟨op, x.1, y.1⟩ :: (x.2 ++ y.2)) <+: ws.drop p ∧
          Denotes name (.next, [.ofNat a]) (.nextCell, [.ofNat a]) left x ∧
          Denotes name (.next, [.ofNat a]) (.nextCell, [.ofNat a]) right y

/-- The label `A` is accepted and its name is read as the register. -/
theorem not_reachesLabels_register :
    assemble ":A SET PC, A".toList = .ok [0x01C1] ∧ ¬ReachesLabels ":A SET PC, A".toList := by
  have hlines : lines ":A SET PC, A".toList = [":A SET PC, A".toList] := by decide
  have hreads : List.Forall₂ Entry.Reads (lines ":A SET PC, A".toList)
      [⟨some "A", some (.instruction .set .pc (.register .a))⟩] := by
    have hlabel : Entry.Labels (Line.ofText ":A SET PC, A".toList) (some "A") :=
      @Entry.Labels.some _ "A".toList rfl rfl
    have hregister : Form.Reads "A".toList (.register .a) :=
      .register (Form.bare_iff.mpr ⟨rfl, rfl⟩) rfl
    rw [hlines]
    exact .cons ⟨hlabel, .some (by decide)
      (.instruction rfl rfl rfl (by decide) (by decide) (.named (by decide)) hregister)⟩ .nil
  have hws : assemble ":A SET PC, A".toList = .ok [0x01C1] :=
    assemble_of_wellFormed hreads (wellFormed_of_size_lt (by decide) (by decide) (by decide))
  refine ⟨hws, fun hreaches => ?_⟩
  obtain ⟨a, -, hall⟩ := @hreaches _ [] [] _ "A".toList hws hlines rfl
  obtain ⟨p, x, y, hp, -, -, hwords, -, hy⟩ := @hall [] [] _ "SET".toList "PC, A".toList
    "PC".toList "A".toList .set hlines rfl rfl rfl
  obtain rfl := occupy_nil.mp hp
  obtain rfl := hy.of_name rfl
  have hlength := hwords.length_le
  simp at hlength

end Dcpu16.Assembly
