import Forwarding.Proofs.Candidate.ForwardName
import Forwarding.Proofs.Parameter.ByteOffsets

/-!
The cut of a candidate's name at the suffix. The suffix is looked for among the bytes of the name,
where it may stand any number of times. A candidate's name ends with it, so the last place where it
stands is the end of the name: the cut takes off that one suffix, falls between two characters, and
leaves enough to put the name together again.
-/

namespace Forwarding

namespace Text

theorem utf8_append (a b : String) : utf8 (a ++ b) = utf8 a ++ utf8 b := by
  unfold utf8
  rw [String.toList_append, List.flatMap_append]

theorem utf8_ne_nil {s : String} (nonempty : s ≠ "") : utf8 s ≠ [] := by
  intro empty
  apply nonempty
  apply String.toList_eq_nil_iff.mp
  have size := ByteOffsets.length_utf8 s
  rw [empty] at size
  cases chars : s.toList with
  | nil => rfl
  | cons c cs =>
    have positive := c.utf8Size_pos
    rw [chars, ByteOffsets.byteLength, List.length_nil] at size
    omega

/-- The bytes of `piece` stand in `text` behind its first `n` bytes. -/
def StandsAt (piece text : String) (n : Nat) : Prop :=
  utf8 piece <+: (utf8 text).drop n

/-- The last offset at which `piece` stands in `text`. -/
structure IsLastOffset (piece text : String) (n : Nat) : Prop where
  stands : StandsAt piece text n
  last : ∀ m, StandsAt piece text m → m ≤ n

/-- Where a piece stands, the text goes on for at least its length. -/
theorem StandsAt.fits {piece text : String} {n : Nat} (h : StandsAt piece text n)
    (nonempty : piece ≠ "") : n + (utf8 piece).length ≤ (utf8 text).length := by
  have positive := List.length_pos_of_ne_nil (utf8_ne_nil nonempty)
  have short := h.length_le
  rw [List.length_drop] at short
  omega

/-- A piece at the end of a text stands nowhere behind that. -/
theorem isLastOffset_append (front piece : String) (nonempty : piece ≠ "") :
    IsLastOffset piece (front ++ piece) (utf8 front).length := by
  constructor
  · exact ⟨[], by rw [List.append_nil, utf8_append, List.drop_left]⟩
  · intro m stands
    have fits := stands.fits nonempty
    rw [utf8_append, List.length_append] at fits
    omega

/-- The end of `front` is no place inside a character. -/
theorem cutAt_append (front piece : String) :
    ByteOffsets.cutAt (utf8 front).length (front ++ piece).toList =
      some (front.toList, piece.toList) := by
  rw [ByteOffsets.length_utf8, String.toList_append]
  exact ByteOffsets.cutAt_boundary _ _

end Text

namespace Candidate

variable {node : NodeId} {s : MethodSymbol} {c : Candidate}

/-- A candidate has the name of its symbol, and it ends with the suffix. -/
theorem name_of_ofSymbol? (built : ofSymbol? node s = some c) :
    c.simpleName = s.name ∧ ∃ front, c.simpleName = front ++ extensionSuffix := by
  unfold ofSymbol? at built
  split at built
  · rename_i marked
    cases built
    exact ⟨rfl, (hasExtensionSuffix_iff s.name).mp marked⟩
  · cases built

theorem simpleName_of_ofSymbol? (built : ofSymbol? node s = some c) :
    c.simpleName = c.forwardName ++ extensionSuffix := by
  obtain ⟨-, front, whole⟩ := name_of_ofSymbol? built
  rw [forwardName_of_append c front whole]
  exact whole

/-- **A candidate's name is its forwarder's name with the suffix behind it.** The suffix is found at
the last offset where its bytes stand, and the cut there is one between two characters that leaves
the forwarder's name in front and the suffix alone behind. So a forwarder has no name exactly if the
candidate is called like the suffix, and the forwarder's name tells the candidate's. -/
theorem forwardName_cut (built : ofSymbol? node s = some c) :
    c.simpleName = s.name ∧
    c.simpleName = c.forwardName ++ extensionSuffix ∧
    (∃ n, Text.IsLastOffset extensionSuffix c.simpleName n ∧
      ByteOffsets.cutAt n c.simpleName.toList =
        some (c.forwardName.toList, extensionSuffix.toList)) ∧
    (c.forwardName = "" ↔ c.simpleName = extensionSuffix) ∧
    ∀ node' s' c', ofSymbol? node' s' = some c' → c'.forwardName = c.forwardName →
      c'.simpleName = c.simpleName := by
  have whole := simpleName_of_ofSymbol? built
  refine ⟨(name_of_ofSymbol? built).1, whole, ?_, ?_, ?_⟩
  · refine ⟨(Text.utf8 c.forwardName).length, ?_, ?_⟩
    · have last := Text.isLastOffset_append c.forwardName extensionSuffix (by decide)
      rwa [← whole] at last
    · have cut := Text.cutAt_append c.forwardName extensionSuffix
      rwa [← whole] at cut
  · have marked := (hasExtensionSuffix_iff c.simpleName).mpr ⟨_, whole⟩
    rw [← forwardName_isEmpty c marked, String.isEmpty_iff]
  · intro node' s' c' built' same
    rw [simpleName_of_ofSymbol? built', same, ← whole]

/-- A name with the suffix at its front, in its middle and twice at its end, and with characters of
several bytes around it. -/
def repeatedName : MethodSymbol :=
  { name := "ExtensionÜberExtension→ExtensionExtension", parameters := [], returnType := "int"
    containingType := ⟨1, "C", "C"⟩, modifiers := ["static"] }

theorem forwardName_cut_repeatedName :
    ∃ c, ofSymbol? 2 repeatedName = some c ∧
      c.forwardName = "ExtensionÜberExtension→Extension" ∧
      (∃ n, Text.IsLastOffset extensionSuffix c.simpleName n ∧
        ByteOffsets.cutAt n c.simpleName.toList =
          some (c.forwardName.toList, extensionSuffix.toList)) := by
  have built : ofSymbol? 2 repeatedName = some ⟨2, ⟨1, "C", "C"⟩,
      "ExtensionÜberExtension→ExtensionExtension", [], "int", ["static"]⟩ := by decide
  refine ⟨_, built, by decide, (forwardName_cut built).2.2.1⟩

end Candidate

end Forwarding
