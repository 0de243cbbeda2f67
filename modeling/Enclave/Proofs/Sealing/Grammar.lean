import Enclave.Proofs.Session
import Mathlib.Algebra.GroupWithZero.Nat

/-!
# The grammar of sealed data

Reading sealed data goes through it with a cursor: each field in turn has to fit
into what is left, how much the last one takes is up to the first, and nothing
may be left behind it. `Sealer.ReadsGrammar` says what this amounts to, and
`Sealer.readsGrammar` that it does so for every byte string.

A byte string is accepted in a layout exactly if it has the length that its own
first four bytes call for. The fields then have the sizes of the layout and make
up the byte string (`Blob.sizes_fields`, `Blob.flatten_fields`); else the error
says how far the cursor came (`Blob.Refusal`). Everything else is read off the
length. A beginning of an accepted byte string has the same first four bytes, so
that it is not accepted itself (`Blob.WellFramed.eq_of_prefix`), and the headers
of the two layouts differ in size, so that one byte string never is in both
(`Blob.WellFramed.layout_unique`). To unseal data as of the other layout is an
error before anything else is done.
-/

namespace Enclave

/-- **The sizes of the fields**, in their order, around a ciphertext of a given
length. -/
def Layout.sizes (l : Layout) (length : Nat) : List Nat :=
  match l with
  | legacy => [4, 16, length]
  | nonced => [4, 16, 16, length]

namespace Blob

/-- **The fields of a byte string that was read as a blob**: its first four
bytes, and what the blob has of it. -/
def fields (b : Bytes) (blob : Blob) : List Bytes :=
  match blob.nonce with
  | none => [b.take 4, blob.tag.toList, blob.ciphertext]
  | some nonce => [b.take 4, nonce.toList, blob.tag.toList, blob.ciphertext]

/-- **Why a byte string is refused** in a layout. -/
inductive Refusal (l : Layout) (b : Bytes) : Error → Prop where
  /-- The fields before some field fit and this one does not; the error has the
  place where it would end. -/
  | truncated (before : List Nat) (size : Nat) (after : List Nat)
    (split : l.sizes (declared b) = before ++ size :: after) (fits : before.sum ≤ b.length)
    (lt : b.length < before.sum + size) :
    Refusal l b (.malformedBlob (.truncated (before.sum + size) b.length))
  /-- All fields fit and bytes are left over; the error has the length that was
  stated, and the number of all bytes behind the header. -/
  | leftOver (carried : Nat) (size : b.length = l.headerSize + carried)
    (lt : declared b < carried) :
    Refusal l b (.malformedBlob (.wrongLength (declared b) carried))

/-! ## What is accepted -/

variable {l l' : Layout} {b b' : Bytes}

/-- The length field of framed data is all there. -/
theorem WellFramed.length_take (h : WellFramed l b) : (b.take 4).length = 4 := by
  have hl := le_headerSize l
  unfold WellFramed at h
  rw [List.length_take]
  omega

/-- **The fields have the sizes of the layout.** -/
theorem sizes_fields (h : WellFramed l b) :
    (fields b (parts l b)).map List.length = l.sizes (declared b) := by
  have hciphertext := length_ciphertext_parts h
  cases l with
  | legacy =>
    show [(b.take 4).length, (Bytes.window 16 4 b).toList.length,
        (parts .legacy b).ciphertext.length]
      = [4, 16, declared b]
    rw [h.length_take, Vector.length_toList, hciphertext]
  | nonced =>
    show [(b.take 4).length, (Bytes.window 16 4 b).toList.length,
        (Bytes.window 16 20 b).toList.length, (parts .nonced b).ciphertext.length]
      = [4, 16, 16, declared b]
    rw [h.length_take, Vector.length_toList, Vector.length_toList, hciphertext]

/-- **The fields make up the byte string.** -/
theorem flatten_fields (h : WellFramed l b) : (fields b (parts l b)).flatten = b := by
  -- the length that would be written is the one that stands there
  have hfield := Bytes.littleEndian_ofLittleEndian (b.take 4)
  rw [h.length_take] at hfield
  have hwritten := toBytes_parts h
  unfold toBytes at hwritten
  rw [length_ciphertext_parts h, declared, hfield] at hwritten
  cases l with
  | legacy => simpa [fields, parts] using hwritten
  | nonced => simpa [fields, parts] using hwritten

/-- **What is accepted has no accepted beginning but itself.** -/
theorem WellFramed.eq_of_prefix (h : WellFramed l b) (h' : WellFramed l b') (hp : b <+: b') :
    b = b' := by
  have hfour : 4 ≤ b.length := by
    have hl := le_headerSize l
    unfold WellFramed at h
    omega
  obtain ⟨rest, rfl⟩ := hp
  unfold WellFramed declared at h h'
  rw [List.take_append_of_le_length hfour, ← h] at h'
  exact (List.prefix_append b rest).eq_of_length h'.symm

/-- **No byte string is in two layouts.** -/
theorem WellFramed.layout_unique (h : WellFramed l b) (h' : WellFramed l' b) : l = l' := by
  have hsize : l.headerSize = l'.headerSize := Nat.add_right_cancel (h.symm.trans h')
  cases l <;> cases l' <;> first | rfl | cases hsize

end Blob

namespace Sealer

variable {l : Layout} {b : Bytes}

/-- A layout accepts exactly what is framed in it. -/
theorem exists_parseSealed_iff :
    (∃ blob, parseSealed l b = .ok blob) ↔ Blob.WellFramed l b := by
  by_cases hframed : Blob.WellFramed l b
  · exact iff_of_true ⟨_, parseSealed_of_wellFramed hframed⟩ hframed
  · refine iff_of_false ?_ hframed
    rintro ⟨blob, hok⟩
    obtain ⟨fault, herror⟩ := parseSealed_of_not_wellFramed hframed
    rw [herror] at hok
    cases hok

/-- What is accepted is framed. -/
theorem wellFramed_of_parseSealed {blob : Blob} (h : parseSealed l b = .ok blob) :
    Blob.WellFramed l b :=
  exists_parseSealed_iff.mp ⟨blob, h⟩

/-- **What is not accepted is refused where the cursor stops.** -/
theorem refusal_of_parseSealed {e : Error} (h : parseSealed l b = .error e) :
    Blob.Refusal l b e := by
  have hsize := Blob.le_headerSize l
  unfold parseSealed at h
  rw [Blob.parse_eq] at h
  by_cases h₁ : b.length < 4
  · rw [if_pos h₁] at h
    cases h
    cases l with
    | legacy => exact .truncated [] 4 [16, _] rfl (Nat.zero_le _) h₁
    | nonced => exact .truncated [] 4 [16, 16, _] rfl (Nat.zero_le _) h₁
  rw [if_neg h₁] at h
  by_cases h₂ : l = .nonced ∧ b.length < 20
  · rw [if_pos h₂] at h
    cases h
    obtain ⟨rfl, h₂⟩ := h₂
    exact .truncated [4] 16 [16, _] rfl (Nat.le_of_not_lt h₁) h₂
  rw [if_neg h₂] at h
  by_cases h₃ : b.length < l.headerSize
  · rw [if_pos h₃] at h
    cases h
    cases l with
    | legacy => exact .truncated [4] 16 [_] rfl (Nat.le_of_not_lt h₁) h₃
    | nonced =>
      exact .truncated [4, 16] 16 [_] rfl (Nat.le_of_not_lt fun h => h₂ ⟨rfl, h⟩) h₃
  rw [if_neg h₃] at h
  by_cases h₄ : b.length < l.headerSize + Blob.declared b
  · rw [if_pos h₄] at h
    cases h
    cases l with
    | legacy => exact .truncated [4, 16] _ [] rfl (Nat.le_of_not_lt h₃) h₄
    | nonced => exact .truncated [4, 16, 16] _ [] rfl (Nat.le_of_not_lt h₃) h₄
  rw [if_neg h₄] at h
  -- the whole header is there, so that nothing is lost in the subtraction
  by_cases h₅ : b.length - l.headerSize ≠ Blob.declared b
  · rw [if_pos h₅] at h
    cases h
    exact .leftOver _ (by omega) (by omega)
  · rw [if_neg h₅] at h
    cases h

/-- **Sealed data that is refused is not unsealed**, before anything else is
done. -/
theorem unsealAs_of_parseSealed {m : Type → Type} [Monad m] [LawfulMonad m] (s : Sealer m)
    {e : Error} (h : parseSealed l b = .error e) : s.unsealAs l b = throw e := by
  unfold unsealAs
  rw [h]
  exact ExceptT.bind_throw _

/-- **Reading sealed data keeps to a grammar**, as far as it is about one byte
string. -/
structure ReadsGrammar (b : Bytes) : Prop where
  /-- Without a nonce there are 20 bytes around the ciphertext. -/
  legacy : (∃ blob, parseSealed .legacy b = .ok blob) ↔ b.length = 20 + Blob.declared b
  /-- With a nonce there are 36. -/
  nonced : (∃ blob, parseSealed .nonced b = .ok blob) ↔ b.length = 36 + Blob.declared b
  /-- The fields of what is accepted have their sizes, follow one another, and
  leave nothing out. -/
  fields : ∀ l blob, parseSealed l b = .ok blob →
    (blob.nonce.isSome ↔ l = .nonced)
      ∧ (Blob.fields b blob).map List.length = l.sizes (Blob.declared b)
      ∧ (Blob.fields b blob).flatten = b
  /-- What is not accepted is refused with what does not fit. -/
  refusal : ∀ l e, parseSealed l b = .error e → Blob.Refusal l b e
  /-- Nothing that is longer is accepted besides, nor anything shorter. -/
  prefixFree : ∀ l b' blob blob', parseSealed l b = .ok blob → parseSealed l b' = .ok blob' →
    b <+: b' ∨ b' <+: b → b = b'
  /-- It is accepted in one layout only. -/
  layout_unique : ∀ l l' blob blob', parseSealed l b = .ok blob → parseSealed l' b = .ok blob' →
    l = l'
  /-- Unsealing it as of the other one is the error of the grammar, and leaves
  channel and keys alone. -/
  unsealAs_other : ∀ l l' blob, parseSealed l b = .ok blob → l' ≠ l →
    ∃ e, Blob.Refusal l' b e
      ∧ ∀ (m : Type → Type) [Monad m] [LawfulMonad m] (s : Sealer m),
        s.unsealAs l' b = throw e

/-- **Every byte string is read by the grammar.** -/
theorem readsGrammar (b : Bytes) : ReadsGrammar b where
  legacy := exists_parseSealed_iff
  nonced := exists_parseSealed_iff
  fields l blob h := by
    have hframed := wellFramed_of_parseSealed h
    rw [parseSealed_of_wellFramed hframed] at h
    cases h
    refine ⟨?_, Blob.sizes_fields hframed, Blob.flatten_fields hframed⟩
    cases l <;> simp [Blob.parts]
  refusal _ _ h := refusal_of_parseSealed h
  prefixFree l b' blob blob' h h' hp := by
    have hframed := wellFramed_of_parseSealed h
    have hframed' := wellFramed_of_parseSealed h'
    rcases hp with hp | hp
    · exact hframed.eq_of_prefix hframed' hp
    · exact (hframed'.eq_of_prefix hframed hp).symm
  layout_unique _ _ _ _ h h' :=
    (wellFramed_of_parseSealed h).layout_unique (wellFramed_of_parseSealed h')
  unsealAs_other l l' blob h hne := by
    have hother : ¬ Blob.WellFramed l' b := fun h' =>
      hne (h'.layout_unique (wellFramed_of_parseSealed h))
    obtain ⟨fault, herror⟩ := parseSealed_of_not_wellFramed hother
    exact ⟨_, refusal_of_parseSealed herror, fun m _ _ s => unsealAs_of_parseSealed s herror⟩

/-- The shortest blob without a nonce lacks a tag as one with a nonce. -/
example : parseSealed .nonced (List.replicate 20 0)
    = .error (.malformedBlob (.truncated 36 20)) := rfl

end Sealer

end Enclave
