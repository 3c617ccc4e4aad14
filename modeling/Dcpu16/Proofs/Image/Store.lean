import Dcpu16.Image.Store
import Dcpu16.Proofs.Image.Binary
import Dcpu16.Proofs.Image.Hex

/-! A program that is saved and loaded again is the same program, whichever format the name of the
file decides, if the place of the files gives back the bytes that were written. -/

namespace Dcpu16

/-- After a successful write the file at `path` holds the bytes written. -/
def Files.Keeps {σ : Type} (files : Files (StateM σ)) (path : String) : Prop :=
  ∀ bytes s s', (files.write path bytes).run s = (.ok (), s') →
    ∃ s'', (files.read path).run s' = (.ok bytes, s'')

/-- Files that are kept in memory, the latest first. -/
def Files.inMemory : Files (StateM (List (String × ByteArray))) where
  read path := do
    match (← get).lookup path with
    | some bytes => return .ok bytes
    | none => return .error .missing
  write path bytes := do
    modify ((path, bytes) :: ·)
    return .ok ()

theorem Files.keeps_inMemory (path : String) : Files.inMemory.Keeps path := by
  intro bytes s s' hwrite
  have hs' : s' = (path, bytes) :: s := (Prod.mk.inj hwrite).2.symm
  have hlookup : List.lookup path s' = some bytes := by
    rw [hs', List.lookup_cons_self]
  refine ⟨s', ?_⟩
  simp only [Files.inMemory, StateT.run_bind, StateT.run_get, pure_bind, hlookup]
  rfl

theorem decodeText_toUTF8 (text : String) : decodeText text.toUTF8 = .ok text := by
  have hvalid : String.fromUTF8? text.toUTF8 = some text := by
    simp only [String.fromUTF8?, String.toUTF8_eq_toByteArray, dif_pos text.isValidUTF8]
    rfl
  rw [decodeText, hvalid]

namespace Image

/-- Reading the bytes from the one at `done.length` on. -/
theorem toList_loop (done bytes : List UInt8) :
    ByteArray.toList.loop ⟨(done ++ bytes).toArray⟩ done.length done.reverse = done ++ bytes := by
  induction bytes generalizing done with
  | nil =>
    unfold ByteArray.toList.loop
    simp [ByteArray.size]
  | cons b bytes ih =>
    have hsize : done.length < (ByteArray.mk (done ++ b :: bytes).toArray).size := by
      simp [ByteArray.size]
    have hget : (ByteArray.mk (done ++ b :: bytes).toArray).get! done.length = b := by
      simp [ByteArray.get!]
    have hnext := ih (done ++ [b])
    simp only [List.append_assoc, List.singleton_append, List.length_append, List.length_singleton,
      List.reverse_append, List.reverse_singleton] at hnext
    unfold ByteArray.toList.loop
    rw [if_pos hsize, hget]
    exact hnext

theorem toList_ofList (bytes : List UInt8) : (ByteArray.mk bytes.toArray).toList = bytes :=
  toList_loop [] bytes

theorem decode_encode (format : Format) (program : List UInt16) :
    decode format (encode format program) = .ok program := by
  cases format with
  | hex =>
    simp only [decode, encode, decodeText_toUTF8, Hex.parse_render]
    rfl
  | binary =>
    simp only [decode, encode, toList_ofList, Binary.parse_render]
    rfl

section Files

variable {σ : Type} {files : Files (StateM σ)} {path : String} {program : List UInt16} {s s' : σ}

theorem run_save (h : (files.write path (encode (.ofPath path.toList) program)).run s =
    (.ok (), s')) : (save files path program).run s = (.ok (), s') := by
  rw [save, StateT.run_bind, h]
  rfl

theorem run_load {bytes : ByteArray} (h : (files.read path).run s = (.ok bytes, s')) :
    (load files path).run s = (decode (.ofPath path.toList) bytes, s') := by
  rw [load, StateT.run_bind, h]
  rfl

end Files

/-- Both formats of program images lose nothing, and neither do files in them. -/
theorem load_save :
    (∀ program, Hex.parse (Hex.render program).toList = .ok program) ∧
      (∀ program, Binary.parse (Binary.render program) = .ok program) ∧
      (∀ bytes : List UInt8,
        (bytes.length % 2 = 0 →
          ∃ program, Binary.parse bytes = .ok program ∧ Binary.render program = bytes) ∧
        (bytes.length % 2 = 1 → Binary.parse bytes = .error (.oddLength bytes.length))) ∧
      ∀ (σ : Type) (files : Files (StateM σ)) (path : String), files.Keeps path →
        ∀ program s s', (files.write path (encode (.ofPath path.toList) program)).run s =
            (.ok (), s') →
          (save files path program).run s = (.ok (), s') ∧
            ∃ s'', (load files path).run s' = (.ok program, s'') := by
  refine ⟨Hex.parse_render, Binary.parse_render,
    fun bytes => ⟨Binary.exists_parse, Binary.parse_odd⟩, ?_⟩
  intro σ files path hkeeps program s s' hwrite
  refine ⟨run_save hwrite, ?_⟩
  obtain ⟨s'', hread⟩ := hkeeps _ s s' hwrite
  refine ⟨s'', ?_⟩
  rw [run_load hread, decode_encode]

theorem load_save_text_in_memory :
    Files.inMemory.Keeps "count.hex" ∧ Format.ofPath "count.hex".toList = .hex ∧
      ∃ s s', (save Files.inMemory "count.hex" [0x7C01, 0x0030]).run [] = (.ok (), s) ∧
        (load Files.inMemory "count.hex").run s = (.ok [0x7C01, 0x0030], s') := by
  have hkeeps := Files.keeps_inMemory "count.hex"
  obtain ⟨hsave, s', hload⟩ :=
    load_save.2.2.2 _ Files.inMemory "count.hex" hkeeps [0x7C01, 0x0030] [] _ rfl
  exact ⟨hkeeps, by decide, _, s', hsave, hload⟩

end Image

end Dcpu16
