import RealtimeChat.Data.CodeUnits
import RealtimeChat.Model.Validators

/-! What `stripHtmlTags` makes of any string (`src/utils/sanitize.ts`).

The handlers' texts are without lone surrogates; here the function is taken on code
units, as JavaScript runs it, and `encode_stripHtmlTags` says that it is the same. It
leaves nothing that looks like a tag (`stripHtmlTags_sanitizes`), and it takes for a tag
whatever stands between a `<` and a `>`: text with both signs does not come out as it was
typed (`typed_iff`). -/
namespace RealtimeChat
open Data (CodeUnits Text encode isSpaceUnit trimBy)
open Data.Spans (HasSpan strip)

namespace CodeUnits

/-- `<` and `>` -/
abbrev lt : UInt16 := 0x3C
abbrev gt : UInt16 := 0x3E

def trim (text : CodeUnits) : CodeUnits := trimBy isSpaceUnit text

/-- `text.replace(/<[^>]*>/g, '').trim()` -/
def stripHtmlTags (text : CodeUnits) : CodeUnits := trim (Data.Spans.remove lt gt text)

/-- A text that `/^<[^>]*>$/` matches. -/
def IsTag (text : CodeUnits) : Prop := ∃ inside, gt ∉ inside ∧ text = lt :: (inside ++ [gt])

/-- What follows the `<` of an HTML tag: a letter, `/`, `!` or `?`. -/
def opensTag (u : UInt16) : Bool :=
  (0x41 ≤ u && u ≤ 0x5A) || (0x61 ≤ u && u ≤ 0x7A) || u == 0x2F || u == 0x21 || u == 0x3F

def hasHtmlTag : CodeUnits → Bool
  | u :: v :: rest => (u == lt && opensTag v) || hasHtmlTag (v :: rest)
  | _ => false

/-- What the sanitizer owes for a text. -/
structure Sanitizes (text result : CodeUnits) : Prop where
  /-- No `<` is followed later by a `>`, so nothing is left that the pattern matches. -/
  unpaired : ¬ HasSpan lt gt result
  untagged : ∀ tag, IsTag tag → ¬ tag <:+: result
  sublist : result.Sublist text
  begins : ∀ u, result.head? = some u → isSpaceUnit u = false
  ends : ∀ u, result.getLast? = some u → isSpaceUnit u = false
  again : stripHtmlTags result = result
  untouched : ¬ HasSpan lt gt text → result = trim text

end CodeUnits

open CodeUnits in
/-- On the texts of the handlers, `stripHtmlTags` is the same. -/
theorem encode_stripHtmlTags (text : Text) :
    encode (stripHtmlTags text) = CodeUnits.stripHtmlTags (encode text) := by
  have hmark : ∀ (d : Char) (u : UInt16), u.toNat = d.toNat → u.toNat < 0xD800 → ∀ c, c ≠ d →
      u ∉ Data.codeUnits c := by
    intro d u hd hu c hne hmem
    rcases Data.mem_codeUnits hmem with heq | ⟨-, hlow, -⟩
    · exact hne (Char.toNat_inj.mp (heq.symm.trans hd))
    · omega
  have hremove : Data.Spans.remove lt gt (encode text) = encode (Data.Spans.remove '<' '>' text) :=
    Data.Spans.remove_flatMap (by decide) (by decide) (hmark '<' lt (by decide) (by decide))
      (hmark '>' gt (by decide) (by decide)) text
  rw [stripHtmlTags_eq_strip, strip, CodeUnits.stripHtmlTags, hremove]
  exact Data.encode_trim _

namespace CodeUnits

/-- **What comes out of the sanitizer**, for every string. -/
theorem stripHtmlTags_sanitizes (text : CodeUnits) : Sanitizes text (stripHtmlTags text) where
  unpaired := Data.Spans.not_hasSpan_strip text
  untagged tag htag hin := by
    obtain ⟨inside, hinside, rfl⟩ := htag
    exact Data.Spans.not_hasSpan_strip text (Data.Spans.hasSpan_iff_infix.mpr ⟨inside, hinside, hin⟩)
  sublist := Data.Spans.strip_sublist text
  begins _ := Data.head_trimBy
  ends _ := Data.getLast_trimBy
  again := Data.Spans.strip_strip text
  untouched := Data.Spans.strip_plain

/-- **Which text without HTML tags is stored as it was typed**: that in which no `<` is
followed, however far away, by a `>`. -/
theorem typed_iff (text : CodeUnits) :
    (hasHtmlTag text = false → stripHtmlTags text = trim text) ↔
      (hasHtmlTag text = false → ¬ HasSpan lt gt text) :=
  forall_congr' fun _ => Data.Spans.strip_eq_trimBy_iff rfl

/-- Two comparisons, and what stands between them is gone. -/
theorem comparisons_removed : ¬ (hasHtmlTag (encode "5 < 10 and 20 > 15".toList) = false →
    stripHtmlTags (encode "5 < 10 and 20 > 15".toList) = trim (encode "5 < 10 and 20 > 15".toList)) := by
  decide

end CodeUnits

end RealtimeChat
