import PushNotificationKafka.Json.Decoder
import Mathlib.Data.List.TakeWhile

/-! What the decoder accepts has a derivation: every reader splits its input
into a text of its grammar class and the rest it returns. -/
namespace Json
open Bytes

theorem mapRest_some (mapped : mapRest f result = some (b, rest)) :
    ∃ a, result = some (a, rest) ∧ f a = b := by
  obtain ⟨⟨a, after⟩, parsed, same⟩ := Option.map_eq_some_iff.mp mapped
  obtain ⟨value, left⟩ := Prod.mk.inj same
  exact ⟨a, left ▸ parsed, value⟩

theorem skipSpace_split (s : Bytes) : ∃ w, s = w ++ skipSpace s ∧ Space w :=
  ⟨s.takeWhile isSpace, List.takeWhile_append_dropWhile.symm, fun _ => List.mem_takeWhile_imp⟩

theorem readFrac_sound (read : readFrac input = some (ds, rest)) :
    ∃ text, input = text ++ rest ∧ Frac text ds := by
  unfold readFrac at read
  split at read
  · cases read
    exact ⟨[], rfl, .absent⟩
  · split at read
    · rename_i point
      subst point
      dsimp only at read
      split at read
      · rename_i digits
        cases read
        exact ⟨dot :: _, by simp [List.takeWhile_append_dropWhile], .digits digits⟩
      · contradiction
    · cases read
      exact ⟨[], rfl, .absent⟩

theorem readExponentDigits_sound (read : readExponentDigits input = some (n, rest)) :
    ∃ ds, input = ds ++ rest ∧ Digits ds ∧ n = digitsValue ds := by
  unfold readExponentDigits at read
  dsimp only at read
  split at read
  · rename_i digits
    cases read
    exact ⟨_, List.takeWhile_append_dropWhile.symm, digits, rfl⟩
  · contradiction

theorem readExponent_sound (read : readExponent input = some (e, rest)) :
    ∃ text, input = text ++ rest ∧ Exponent text e := by
  unfold readExponent at read
  split at read
  · cases read
    exact ⟨[], rfl, .absent⟩
  · rename_i c tail
    by_cases opens : isE c
    · rw [if_pos opens] at read
      split at read
      · contradiction
      · rename_i sign digits
        by_cases plusSign : sign = plus
        · rw [if_pos plusSign] at read
          obtain ⟨n, parsed, rfl⟩ := mapRest_some read
          obtain ⟨ds, rfl, all, rfl⟩ := readExponentDigits_sound parsed
          exact ⟨c :: sign :: ds, rfl, plusSign ▸ .plus opens all⟩
        · rw [if_neg plusSign] at read
          by_cases minusSign : sign = minus
          · rw [if_pos minusSign] at read
            obtain ⟨n, parsed, rfl⟩ := mapRest_some read
            obtain ⟨ds, rfl, all, rfl⟩ := readExponentDigits_sound parsed
            exact ⟨c :: sign :: ds, rfl, minusSign ▸ .minus opens all⟩
          · rw [if_neg minusSign] at read
            obtain ⟨n, parsed, rfl⟩ := mapRest_some read
            obtain ⟨ds, split, all, rfl⟩ := readExponentDigits_sound parsed
            exact ⟨c :: ds, by rw [split]; rfl, .unsigned opens all⟩
    · rw [if_neg opens] at read
      cases read
      exact ⟨[], rfl, .absent⟩

theorem readUnsigned_sound (read : readUnsigned input = some (d, rest)) :
    ∃ text, input = text ++ rest ∧ Unsigned text d := by
  unfold readUnsigned at read
  dsimp only at read
  split at read
  · rename_i whole
    split at read
    · contradiction
    · rename_i ds middle frac
      obtain ⟨e, exponent, rfl⟩ := mapRest_some read
      obtain ⟨f, fracSplit, isFrac⟩ := readFrac_sound frac
      obtain ⟨x, rfl, isExponent⟩ := readExponent_sound exponent
      refine ⟨_, ?_, .mk whole isFrac isExponent⟩
      rw [List.append_assoc, List.append_assoc, ← fracSplit, List.takeWhile_append_dropWhile]
  · contradiction

theorem readNumber_sound (read : readNumber input = some (d, rest)) :
    ∃ text, input = text ++ rest ∧ Number text d := by
  unfold readNumber at read
  split at read
  · contradiction
  · split at read
    · rename_i sign
      obtain ⟨d, parsed, rfl⟩ := mapRest_some read
      obtain ⟨text, rfl, unsigned⟩ := readUnsigned_sound parsed
      exact ⟨_ :: text, rfl, sign ▸ .negative unsigned⟩
    · obtain ⟨text, split, unsigned⟩ := readUnsigned_sound read
      exact ⟨text, split, .unsigned unsigned⟩

/-- The induction follows the reader: one chunk of the body per case. -/
theorem readBody_sound (read : readBody input = some (s, rest)) :
    ∃ body, input = body ++ quote :: rest ∧ StringBody body s := by
  fun_induction readBody input generalizing s with
  | case2 tail =>
    cases read
    exact ⟨[], rfl, .nil⟩
  | case6 a b c d high highHex isHigh b₁ b₂ e f g h tail marks low lowHex isLow _ ih =>
    obtain ⟨s, parsed, rfl⟩ := mapRest_some read
    obtain ⟨body, rfl, derived⟩ := ih parsed
    obtain ⟨rfl, rfl⟩ := marks
    exact ⟨_, rfl, .pair highHex isHigh lowHex isLow derived⟩
  | case11 a b c d tail n hex notHigh notLow _ ih =>
    obtain ⟨s, parsed, rfl⟩ := mapRest_some read
    obtain ⟨body, rfl, derived⟩ := ih parsed
    exact ⟨_, rfl, .unicode hex (Bool.eq_false_iff.mpr notHigh) (Bool.eq_false_iff.mpr notLow) derived⟩
  | case14 e tail _ c short _ ih =>
    obtain ⟨s, parsed, rfl⟩ := mapRest_some read
    obtain ⟨body, rfl, derived⟩ := ih parsed
    exact ⟨_, rfl, .escape short derived⟩
  | case15 c tail _ _ plain ih =>
    obtain ⟨s, parsed, rfl⟩ := mapRest_some read
    obtain ⟨body, rfl, derived⟩ := ih parsed
    exact ⟨_, rfl, .plain plain derived⟩
  | _ => contradiction

theorem readString_sound (read : readString input = some (s, rest)) :
    ∃ body, input = quote :: (body ++ quote :: rest) ∧ StringBody body s := by
  unfold readString at read
  split at read
  · contradiction
  · split at read
    · rename_i opens
      obtain ⟨body, rfl, derived⟩ := readBody_sound read
      exact ⟨body, by rw [opens], derived⟩
    · contradiction

theorem readName_sound (read : readName input = some (v, rest)) :
    ∃ text, input = text ++ rest ∧ Denotes text v := by
  unfold readName at read
  split at read
  · rename_i found
    obtain ⟨tail, rfl⟩ := found
    cases read
    exact ⟨_, rfl, .null⟩
  · split at read
    · rename_i found
      obtain ⟨tail, rfl⟩ := found
      cases read
      exact ⟨_, rfl, .true⟩
    · split at read
      · rename_i found
        obtain ⟨tail, rfl⟩ := found
        cases read
        exact ⟨_, rfl, .false⟩
      · contradiction

/-- Soundness of the five value readers at one fuel. -/
structure Sound (fuel : Nat) : Prop where
  value : ∀ {s v rest}, readValue fuel s = some (v, rest) →
    ∃ text, s = text ++ rest ∧ Denotes text v
  element : ∀ {s v rest}, readElement fuel s = some (v, rest) →
    ∃ text, s = text ++ rest ∧ Element text v
  elements : ∀ {s vs rest}, readElements fuel s = some (vs, rest) →
    ∃ text, s = text ++ rbracket :: rest ∧ Elements text vs
  member : ∀ {s m rest}, readMember fuel s = some (m, rest) →
    ∃ text, s = text ++ rest ∧ Member text m
  members : ∀ {s ms rest}, readMembers fuel s = some (ms, rest) →
    ∃ text, s = text ++ rbrace :: rest ∧ Members text ms

namespace Sound

theorem readValue_succ (ih : Sound fuel) (read : readValue (fuel + 1) s = some (v, rest)) :
    ∃ text, s = text ++ rest ∧ Denotes text v := by
  cases s with
  | nil => simp [readValue] at read
  | cons c tail =>
    obtain ⟨w, space, white⟩ := skipSpace_split tail
    rw [readValue] at read
    split at read
    · rename_i opens
      obtain ⟨s, parsed, rfl⟩ := mapRest_some read
      obtain ⟨body, rfl, derived⟩ := readBody_sound parsed
      exact ⟨quote :: (body ++ [quote]), by simp [opens], .str derived⟩
    · split at read
      · rename_i opens
        split at read
        · contradiction
        · rename_i d after skipped
          split at read
          · rename_i closes
            cases read
            exact ⟨lbracket :: (w ++ [rbracket]), by rw [space, skipped]; simp [opens, closes],
              .emptyArr white⟩
          · obtain ⟨vs, parsed, rfl⟩ := mapRest_some read
            obtain ⟨text, split, derived⟩ := ih.elements parsed
            exact ⟨lbracket :: (text ++ [rbracket]), by simp [opens, split], .arr derived⟩
      · split at read
        · rename_i opens
          split at read
          · contradiction
          · rename_i d after skipped
            split at read
            · rename_i closes
              cases read
              exact ⟨lbrace :: (w ++ [rbrace]), by rw [space, skipped]; simp [opens, closes],
                .emptyObj white⟩
            · obtain ⟨ms, parsed, rfl⟩ := mapRest_some read
              obtain ⟨text, split, derived⟩ := ih.members parsed
              exact ⟨lbrace :: (text ++ [rbrace]), by simp [opens, split], .obj derived⟩
        · split at read
          · rename_i number
            cases read
            obtain ⟨text, split, derived⟩ := readNumber_sound number
            exact ⟨text, split, .num derived⟩
          · exact readName_sound read

theorem readElement_succ (ih : Sound fuel) (read : readElement (fuel + 1) s = some (v, rest)) :
    ∃ text, s = text ++ rest ∧ Element text v := by
  obtain ⟨w, space, white⟩ := skipSpace_split s
  obtain ⟨⟨value, after⟩, parsed, same⟩ := Option.map_eq_some_iff.mp read
  obtain ⟨text, split, derived⟩ := ih.value parsed
  obtain ⟨w', space', white'⟩ := skipSpace_split after
  cases same
  refine ⟨w ++ (text ++ w'), ?_, .mk white derived white'⟩
  rw [List.append_assoc, List.append_assoc, ← space', ← split, ← space]

theorem readElements_succ (ih : Sound fuel) (read : readElements (fuel + 1) s = some (vs, rest)) :
    ∃ text, s = text ++ rbracket :: rest ∧ Elements text vs := by
  rw [readElements] at read
  split at read
  · contradiction
  · contradiction
  · rename_i v c tail first
    obtain ⟨text, rfl, element⟩ := ih.element first
    split at read
    · rename_i separates
      obtain ⟨vs, parsed, rfl⟩ := mapRest_some read
      obtain ⟨others, rfl, derived⟩ := ih.elements parsed
      exact ⟨text ++ comma :: others, by simp [separates], .next element derived⟩
    · split at read
      · rename_i closes
        cases read
        exact ⟨text, by rw [closes], .last element⟩
      · contradiction

theorem readMember_succ (ih : Sound fuel) (read : readMember (fuel + 1) s = some (m, rest)) :
    ∃ text, s = text ++ rest ∧ Member text m := by
  obtain ⟨w, space, white⟩ := skipSpace_split s
  rw [readMember] at read
  split at read
  · contradiction
  · rename_i key middle name
    obtain ⟨body, opened, derived⟩ := readString_sound name
    obtain ⟨w', space', white'⟩ := skipSpace_split middle
    split at read
    · contradiction
    · rename_i c tail skipped
      split at read
      · rename_i separates
        obtain ⟨v, parsed, rfl⟩ := mapRest_some read
        obtain ⟨text, rfl, element⟩ := ih.element parsed
        refine ⟨w ++ quote :: (body ++ quote :: (w' ++ colon :: text)), ?_,
          .mk white derived white' element⟩
        rw [space, opened, space', skipped, separates]
        simp
      · contradiction

theorem readMembers_succ (ih : Sound fuel) (read : readMembers (fuel + 1) s = some (ms, rest)) :
    ∃ text, s = text ++ rbrace :: rest ∧ Members text ms := by
  rw [readMembers] at read
  split at read
  · contradiction
  · contradiction
  · rename_i m c tail first
    obtain ⟨text, rfl, member⟩ := ih.member first
    split at read
    · rename_i separates
      obtain ⟨ms, parsed, rfl⟩ := mapRest_some read
      obtain ⟨others, rfl, derived⟩ := ih.members parsed
      exact ⟨text ++ comma :: others, by simp [separates], .next member derived⟩
    · split at read
      · rename_i closes
        cases read
        exact ⟨text, by rw [closes], .last member⟩
      · contradiction

theorem all (fuel : Nat) : Sound fuel := by
  induction fuel with
  | zero => constructor <;> intros <;> contradiction
  | succ fuel ih =>
    exact ⟨readValue_succ ih, readElement_succ ih, readElements_succ ih, readMember_succ ih,
      readMembers_succ ih⟩

end Sound

theorem decode_sound (decoded : decode text = some v) : Document text v := by
  unfold decode at decoded
  split at decoded
  · rename_i read
    cases decoded
    obtain ⟨whole, split, derived⟩ := (Sound.all _).element read
    rw [List.append_nil] at split
    exact split ▸ derived
  · contradiction

end Json
