import MissionScript.Proofs.Save.Store

/-!
File names of saves. Where one byte of a name ends and the next one begins can be seen in the file
name, so that two names have the same file only if they are the same up to folding; and no save is
written beside its place under the name of another one.
-/

namespace MissionScript

namespace Text

theorem hexDigit_inj {m n : Nat} (h : hexDigit m = hexDigit n) : m % 16 = n % 16 := by
  have hall : ∀ m < 16, ∀ n < 16, Nat.digitChar m = Nat.digitChar n → m = n := by decide
  exact hall _ (Nat.mod_lt _ (by decide)) _ (Nat.mod_lt _ (by decide)) h

theorem hexByte_inj {a b : UInt8} (h : hexByte a = hexByte b) : a = b := by
  have hdigits := List.cons.inj h
  have hhigh := hexDigit_inj hdigits.1
  have hlow := hexDigit_inj (List.cons.inj hdigits.2).1
  have ha := a.toNat_lt
  have hb := b.toNat_lt
  exact UInt8.toNat_inj.1 (by omega)

theorem toNat_ofNat_byte (b : UInt8) : (Char.ofNat b.toNat).toNat = b.toNat := by
  have hb := b.toNat_lt
  rw [Char.toNat_ofNat, if_pos (Or.inl (by omega))]

theorem ne_percent_of_isPlainByte {b : UInt8} (h : isPlainByte b = true) :
    Char.ofNat b.toNat ≠ '%' := by
  intro hpercent
  have hb : b.toNat = (0x25 : UInt8).toNat := by
    rw [← toNat_ofNat_byte, hpercent]
    rfl
  rw [UInt8.toNat_inj.1 hb] at h
  exact absurd h (by decide)

/-- What a file name begins with settles the first byte of the name, and where the rest begins. -/
theorem stemByte_append_inj {a b : UInt8} {s t : List Char}
    (h : stemByte a ++ s = stemByte b ++ t) : a = b ∧ s = t := by
  unfold stemByte at h
  split at h
  · next ha =>
    split at h
    · obtain ⟨hchar, hrest⟩ := List.cons.inj h
      have hnat := congrArg Char.toNat hchar
      rw [toNat_ofNat_byte, toNat_ofNat_byte] at hnat
      exact ⟨UInt8.toNat_inj.1 hnat, hrest⟩
    · exact absurd (List.cons.inj h).1 (ne_percent_of_isPlainByte ha)
  · split at h
    · next hb => exact absurd (List.cons.inj h).1.symm (ne_percent_of_isPlainByte hb)
    · obtain ⟨hbytes, hrest⟩ := List.append_inj (List.cons.inj h).2 rfl
      exact ⟨hexByte_inj hbytes, hrest⟩

theorem flatMap_stemByte_inj {bytes bytes' : List UInt8}
    (h : bytes.flatMap stemByte = bytes'.flatMap stemByte) : bytes = bytes' := by
  have hne (b : UInt8) (rest : List Char) : stemByte b ++ rest ≠ [] := by
    unfold stemByte
    split <;> exact List.cons_ne_nil _ _
  induction bytes generalizing bytes' with
  | nil =>
    cases bytes' with
    | nil => rfl
    | cons b rest => exact absurd h.symm (hne b _)
  | cons a rest ih =>
    cases bytes' with
    | nil => exact absurd h (hne a _)
    | cons b rest' =>
      obtain ⟨rfl, hrest⟩ := stemByte_append_inj h
      rw [ih hrest]

/-- Names that are not the same up to folding never share a file. -/
theorem fileStem_eq_iff {name name' : String} :
    fileStem name = fileStem name' ↔ foldName name = foldName name' := by
  refine ⟨fun h => ?_, fun h => by rw [fileStem, h, fileStem]⟩
  have hbytes := flatMap_stemByte_inj (String.ofList_injective h)
  exact String.toByteArray_inj.1 (ByteArray.ext (Array.toList_inj.1 hbytes))

end Text

namespace SaveStore

variable {s : SaveStore}

theorem fileName_eq_iff {kind kind' : SaveKind} {name name' : String} :
    s.fileName kind name = s.fileName kind' name' ↔ kind = kind' ∧ foldName name = foldName name' := by
  constructor
  · intro h
    have hhead := s.head?_fileName kind name ""
    rw [h, head?_fileName] at hhead
    obtain rfl : kind = kind' := by
      cases kind <;> cases kind' <;> simp [SaveKind.word] at hhead ⊢
    refine ⟨rfl, Text.fileStem_eq_iff.1 ?_⟩
    unfold fileName at h
    exact (String.append_right_inj _).1 ((String.append_left_inj _).1 ((String.append_left_inj _).1 h))
  · rintro ⟨rfl, hname⟩
    rw [fileName, Text.fileStem_eq_iff.2 hname, fileName]

/-- What is written beside its place is not in the place of another save. -/
theorem fileName_ne_staged {format : SaveFormat} (hcodec : s.codec = format.codec)
    (kind kind' : SaveKind) (name name' : String) :
    s.fileName kind name ≠ s.fileName kind' name' ++ ".tmp" := by
  have hextension : s.codec.extension.toList.getLast? = some 'n' := by
    rw [hcodec]
    cases format <;> decide
  have hlast : (s.fileName kind name).toList.getLast? = some 'n' := by
    rw [fileName, String.toList_append, List.getLast?_append, hextension, Option.some_or]
  intro h
  rw [h, String.toList_append, List.getLast?_append] at hlast
  exact absurd hlast (by simp)

end SaveStore

end MissionScript
