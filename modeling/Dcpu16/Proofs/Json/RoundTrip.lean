import Dcpu16.Proofs.Json.Numerals

/-! A written value is read again, in either layout.  Its tokens stand in between: the text is
scanned into them, and they take a reader from where a value is expected to where that value has
been read. -/

namespace Dcpu16.Json

open Decimal (Numeral)

/-! ### Tokens of values -/

mutual

/-- The tokens of a value. -/
def Value.tokens : Value → List Token
  | .array [] => [.openArray, .closeArray]
  | .array (v :: vs) => .openArray :: (Value.tokens v ++ elementTokens vs ++ [.closeArray])
  | .object [] => [.openObject, .closeObject]
  | .object (m :: ms) => .openObject :: (memberTokens m ++ membersTokens ms ++ [.closeObject])
  | v => [.scalar v]

/-- The tokens of further elements. -/
def elementTokens : List Value → List Token
  | [] => []
  | v :: vs => .comma :: (Value.tokens v ++ elementTokens vs)

/-- The tokens of a member. -/
def memberTokens : Contents × Value → List Token
  | (name, v) => .scalar (.string name) :: .colon :: Value.tokens v

/-- The tokens of further members. -/
def membersTokens : List (Contents × Value) → List Token
  | [] => []
  | m :: ms => .comma :: (memberTokens m ++ membersTokens ms)

end

/-- All numerals of the value are read as what they are written for. -/
inductive Value.Readable : Value → Prop
  | null : Readable .null
  | bool (b : Bool) : Readable (.bool b)
  | number {n : Numeral} : Json.Readable n → Readable (.number n)
  | string (s : Contents) : Readable (.string s)
  | array {vs : List Value} : (∀ v ∈ vs, Readable v) → Readable (.array vs)
  | object {ms : List (Contents × Value)} : (∀ m ∈ ms, Readable m.2) → Readable (.object ms)

theorem Value.readable_nat (n : Nat) : (nat n).Readable :=
  .number (plain_ofNat n).readable

theorem Value.readable_record {fields : List (String × Value)}
    (h : ∀ m ∈ fields, m.2.Readable) : (record fields).Readable := by
  refine .object fun m hm => ?_
  obtain ⟨m, hm', rfl⟩ := List.mem_map.mp hm
  exact h m hm'

/-! ### From text to tokens -/

theorem Layout.isSpace_of_mem_lineBreak (layout : Layout) (level : Nat) :
    ∀ c ∈ (layout.lineBreak level).toList, isSpace c = true := by
  intro c hc
  cases layout with
  | compact => cases hc
  | pretty =>
    simp only [lineBreak, String.toList_append, String.toList_ofList, List.mem_append,
      List.mem_replicate] at hc
    rcases hc with hc | ⟨-, rfl⟩
    · obtain rfl : c = '\n' := by simpa using hc
      rfl
    · rfl

variable {layout : Layout} {level : Nat} {out : String} {ts : List Token}

theorem SpellsOut.lineBreak (h : SpellsOut out ts) (layout : Layout) (level : Nat) :
    SpellsOut (out ++ layout.lineBreak level) ts :=
  h.spaces (layout.isSpace_of_mem_lineBreak level)

theorem SpellsOut.colon (h : SpellsOut out ts) :
    SpellsOut (out ++ layout.colon) (ts ++ [.colon]) := by
  have hcolon : SpellsOut (out ++ ":") (ts ++ [.colon]) := h.mark (c := ':') rfl
  cases layout with
  | compact => exact hcolon
  | pretty =>
    have hspaces : out ++ Layout.pretty.colon = out ++ ":" ++ " " := by
      rw [String.append_assoc]
      rfl
    rw [hspaces]
    exact hcolon.spaces (by simp [isSpace])

theorem Spells.lineBreak (h : Spells out ts) (layout : Layout) (level : Nat) :
    Spells (out ++ layout.lineBreak level) ts :=
  h.spaces (layout.isSpace_of_mem_lineBreak level)

/-- Writing the value behind a text that spells some tokens spells its tokens behind them. -/
def Value.Writes (v : Value) : Prop :=
  ∀ layout level out ts, SpellsOut out ts →
    Spells (v.writeOnto layout level out) (ts ++ v.tokens)

theorem spells_elementsOnto {vs : List Value} (hvs : ∀ v ∈ vs, v.Writes) (h : Spells out ts) :
    Spells (elementsOnto layout level out vs) (ts ++ elementTokens vs) := by
  induction vs generalizing out ts with
  | nil =>
    rw [elementsOnto, elementTokens, List.append_nil]
    exact h
  | cons v vs ih =>
    have hcomma : SpellsOut (out ++ "," ++ layout.lineBreak level) (ts ++ [.comma]) :=
      (h.mark (c := ',') rfl).lineBreak layout level
    have hv := hvs v (by simp) layout level _ _ hcomma
    rw [elementsOnto, elementTokens]
    simpa using ih (fun v hv => hvs v (by simp [hv])) hv

theorem spells_memberOnto {m : Contents × Value} (hm : m.2.Writes) (h : SpellsOut out ts) :
    Spells (memberOnto layout level out m) (ts ++ memberTokens m) := by
  obtain ⟨name, v⟩ := m
  rw [memberOnto, memberTokens]
  simpa using hm layout level _ _ (h.literal name).colon

theorem spells_membersOnto {ms : List (Contents × Value)} (hms : ∀ m ∈ ms, m.2.Writes)
    (h : Spells out ts) :
    Spells (membersOnto layout level out ms) (ts ++ membersTokens ms) := by
  induction ms generalizing out ts with
  | nil =>
    rw [membersOnto, membersTokens, List.append_nil]
    exact h
  | cons m ms ih =>
    have hcomma : SpellsOut (out ++ "," ++ layout.lineBreak level) (ts ++ [.comma]) :=
      (h.mark (c := ',') rfl).lineBreak layout level
    have hm : Spells (memberOnto layout level _ m) _ :=
      spells_memberOnto (hms m (by simp)) hcomma
    rw [membersOnto, membersTokens]
    simpa using ih (fun m hm => hms m (by simp [hm])) hm

theorem writes_word {v : Value} {word : String} (hv : wordOf? word.toList = some v)
    (hword : word.toList.all Char.isAlpha = true)
    (hfirst : word.toList.head?.all (!isNumberPart ·) = true) (h : SpellsOut out ts) :
    Spells (out ++ word) (ts ++ [.scalar v]) := by
  intro done rest hrest
  have hnumber : ∀ c ∈ word.toList.head?, isNumberPart c = false := fun c hc => by
    simpa [Option.mem_def.mp hc] using hfirst
  rw [String.toList_append, List.append_assoc, h,
    scanFrom_word hv (List.all_eq_true.mp hword) hnumber _ hrest]
  simp

theorem Value.Readable.writes {v : Value} (h : v.Readable) : v.Writes := by
  induction h with
  | null =>
    intro layout level out ts hout
    exact writes_word rfl (by decide) (by decide) hout
  | bool b =>
    intro layout level out ts hout
    cases b with
    | false => exact writes_word rfl (by decide) (by decide) hout
    | true => exact writes_word rfl (by decide) (by decide) hout
  | number hn =>
    intro layout level out ts hout done rest hrest
    rw [writeOnto, String.toList_append, List.append_assoc, hout, scanFrom_numeral hn _ hrest]
    simp [tokens]
  | string s =>
    intro layout level out ts hout
    exact (hout.literal s).spells
  | @array vs _ ih =>
    intro layout level out ts hout
    have hopen : SpellsOut (out ++ "[") (ts ++ [.openArray]) := hout.mark (c := '[') rfl
    cases vs with
    | nil =>
      have hclosed : SpellsOut (out ++ "[" ++ "]") (ts ++ [.openArray] ++ [.closeArray]) :=
        hopen.mark (c := ']') rfl
      rw [String.append_assoc, List.append_assoc] at hclosed
      exact hclosed.spells
    | cons v vs =>
      have hv := ih v List.mem_cons_self layout (level + 1) _ _ (hopen.lineBreak layout (level + 1))
      have hvs : Spells (elementsOnto layout (level + 1) _ vs) _ :=
        spells_elementsOnto (fun v hv => ih v (List.mem_cons_of_mem _ hv)) hv
      have hclosed := (hvs.lineBreak layout level).mark (c := ']') rfl
      rw [writeOnto, tokens]
      simpa using hclosed.spells
  | @object ms _ ih =>
    intro layout level out ts hout
    have hopen : SpellsOut (out ++ "\x7b") (ts ++ [.openObject]) := hout.mark (c := '\x7b') rfl
    cases ms with
    | nil =>
      have hclosed : SpellsOut (out ++ "\x7b" ++ "\x7d") (ts ++ [.openObject] ++ [.closeObject]) :=
        hopen.mark (c := '\x7d') rfl
      rw [String.append_assoc, List.append_assoc] at hclosed
      exact hclosed.spells
    | cons m ms =>
      have hm : Spells (memberOnto layout (level + 1) _ m) _ :=
        spells_memberOnto (ih m List.mem_cons_self) (hopen.lineBreak layout (level + 1))
      have hms : Spells (membersOnto layout (level + 1) _ ms) _ :=
        spells_membersOnto (fun m hm => ih m (List.mem_cons_of_mem _ hm)) hm
      have hclosed := (hms.lineBreak layout level).mark (c := '\x7d') rfl
      rw [writeOnto, tokens]
      simpa using hclosed.spells

/-! ### From tokens to values -/

/-- The tokens of the value take a reader past it. -/
def Value.Reads (v : Value) : Prop :=
  ∀ s e, e = .value ∨ e = .element →
    v.tokens.foldlM Reader.step ⟨s, e⟩ = some ⟨s, .after v⟩

theorem reads_elements {vs : List Value} (hvs : ∀ v ∈ vs, v.Reads) (s : List Frame)
    (us : List Value) (u : Value) : ∃ us' u', us'.reverse ++ [u'] = us.reverse ++ u :: vs ∧
      (elementTokens vs).foldlM Reader.step ⟨.array us :: s, .after u⟩ =
        some ⟨.array us' :: s, .after u'⟩ := by
  -- A frame has the elements before the latest one, which only a comma or a bracket puts there.
  induction vs generalizing us u with
  | nil => exact ⟨us, u, rfl, rfl⟩
  | cons v vs ih =>
    obtain ⟨us', u', hvalues, htokens⟩ :=
      ih (fun v hv => hvs v (List.mem_cons_of_mem _ hv)) (u :: us) v
    refine ⟨us', u', by simpa using hvalues, ?_⟩
    rw [elementTokens, List.foldlM_cons]
    show List.foldlM _ (⟨.array (u :: us) :: s, .value⟩ : Reader) _ = _
    rw [List.foldlM_append, hvs v List.mem_cons_self _ _ (.inl rfl)]
    exact htokens

theorem reads_member {m : Contents × Value} (hm : m.2.Reads) (s : List Frame)
    (ms : List (Contents × Value)) (e : Expected) (he : e = .name ∨ e = .firstName) :
    (memberTokens m).foldlM Reader.step ⟨.object ms :: s, e⟩ =
      some ⟨.member ms m.1 :: s, .after m.2⟩ := by
  obtain ⟨name, v⟩ := m
  have hvalue := hm (.member ms name :: s) .value (.inl rfl)
  rw [memberTokens]
  rcases he with rfl | rfl <;> exact hvalue

theorem reads_members {ms : List (Contents × Value)} (hms : ∀ m ∈ ms, m.2.Reads) (s : List Frame)
    (us : List (Contents × Value)) (u : Contents × Value) :
    ∃ us' u', us'.reverse ++ [u'] = us.reverse ++ u :: ms ∧
      (membersTokens ms).foldlM Reader.step ⟨.member us u.1 :: s, .after u.2⟩ =
        some ⟨.member us' u'.1 :: s, .after u'.2⟩ := by
  induction ms generalizing us u with
  | nil => exact ⟨us, u, rfl, rfl⟩
  | cons m ms ih =>
    obtain ⟨us', u', hmembers, htokens⟩ :=
      ih (fun m hm => hms m (List.mem_cons_of_mem _ hm)) (u :: us) m
    refine ⟨us', u', by simpa using hmembers, ?_⟩
    rw [membersTokens, List.foldlM_cons]
    show List.foldlM _ (⟨.object (u :: us) :: s, .name⟩ : Reader) _ = _
    rw [List.foldlM_append, reads_member (hms m List.mem_cons_self) _ _ _ (.inl rfl)]
    exact htokens

theorem Value.Readable.reads {v : Value} (h : v.Readable) : v.Reads := by
  induction h with
  | null | bool | number | string =>
    intro s e he
    rcases he with rfl | rfl <;> rfl
  | @array vs _ ih =>
    intro s e he
    have hopen (ts : List Token) : List.foldlM Reader.step ⟨s, e⟩ (.openArray :: ts) =
        List.foldlM Reader.step ⟨.array [] :: s, .element⟩ ts := by
      rcases he with rfl | rfl <;> rfl
    cases vs with
    | nil => exact hopen [.closeArray]
    | cons v vs =>
      obtain ⟨us, u, hvalues, htokens⟩ :=
        reads_elements (fun v hv => ih v (List.mem_cons_of_mem _ hv)) s [] v
      rw [tokens, hopen, List.foldlM_append, List.foldlM_append,
        ih v List.mem_cons_self _ _ (.inr rfl), Option.bind_eq_bind, Option.bind_some, htokens]
      show some (⟨s, .after (.array (u :: us).reverse)⟩ : Reader) = _
      rw [List.reverse_cons, hvalues]
      rfl
  | @object ms _ ih =>
    intro s e he
    have hopen (ts : List Token) : List.foldlM Reader.step ⟨s, e⟩ (.openObject :: ts) =
        List.foldlM Reader.step ⟨.object [] :: s, .firstName⟩ ts := by
      rcases he with rfl | rfl <;> rfl
    cases ms with
    | nil => exact hopen [.closeObject]
    | cons m ms =>
      obtain ⟨us, u, hmembers, htokens⟩ :=
        reads_members (fun m hm => ih m (List.mem_cons_of_mem _ hm)) s [] m
      rw [tokens, hopen, List.foldlM_append, List.foldlM_append,
        reads_member (ih m List.mem_cons_self) _ _ _ (.inr rfl), Option.bind_eq_bind,
        Option.bind_some, htokens]
      show some (⟨s, .after (.object (u :: us).reverse)⟩ : Reader) = _
      rw [List.reverse_cons, hmembers]
      rfl

/-! ### Round trips -/

/-- Reading a text that was written for a value gives this value. -/
theorem Value.parse?_writeOnto {v : Value} (h : v.Readable) (layout : Layout) :
    Value.parse? (v.writeOnto layout 0 "").toList = some v := by
  have hspells := h.writes layout 0 "" [] spellsOut_empty [] [] nofun
  rw [List.append_nil, List.append_nil, List.nil_append] at hspells
  have hscan : scan (v.writeOnto layout 0 "").toList = some v.tokens := by
    rw [scan, hspells, scanFrom, List.reverse_reverse]
  rw [Value.parse?, hscan, Option.bind_some, Value.ofTokens?, h.reads [] .value (.inl rfl)]
  rfl

end Dcpu16.Json
