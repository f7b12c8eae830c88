import AtomicCss.Media
import AtomicCss.Proofs.Text.Cut
import Mathlib.Data.List.Infix

/-!
# Detecting a Scheme

What the two ways to recognise a colour scheme have in common.

Both look for a marker and leave the rest of the token to be read, and they go about it
differently. Read `leading`, the marker has to open the token and exactly the marker goes.
Read `anywhere`, three searches are made over the same text: for the dark marker, for the
light one, and for a dot to cut at. None of them knows what the others found, so what is cut
off need not be a marker at all, and the marker may stand behind the cut.

The searches are tied together by what a marker is: a name without a dot, and then a dot. So
a token that holds a marker has a dot, and once a scheme is found the cut does not fail. And
if the marker opens the token, its own dot is the first one, so the cut takes off the marker
and nothing else. Both ways then leave the same text. They may still differ in the scheme,
because the dark marker wins over a light one that opens the token, wherever it stands.

Each way has a closed form (`detect_leading_eq_some_iff`, `detect_anywhere_eq_some_iff`), and
the comparison is read off the two.

## Theorems

* `marker_eq`: A marker is a name without a dot, and a dot.
* `cutAt_marker_append`: A token that a marker opens is cut behind it.
* `detect_leading_eq_some_iff`: Detecting a marker at the front.
* `find?_occursIn`: Which of the two markers is found.
* `detect_anywhere_eq_some_iff`, `detect_anywhere_eq_none_iff`: Detecting one at any place.
* `suffix_of_detect`: What is left is an end of the token.
* `detect_anywhere_of_leading`: What is detected at the front is detected at any place.
* `detect_leading_anywhere`: How far the two ways agree.
-/

namespace AtomicCss

open Text

namespace ColorScheme

/-- A marker is a name without a dot, and then a dot. -/
theorem marker_eq (scheme : ColorScheme) :
    scheme.marker.toList = scheme.name.toList ++ ['.'] ∧ '.' ∉ scheme.name.toList := by
  cases scheme <;> decide

/-- A token that a marker opens is cut behind the marker, whatever dots it holds there. -/
theorem cutAt_marker_append (scheme : ColorScheme) (rest : List Char) :
    cutAt '.' (scheme.marker.toList ++ rest) = some (scheme.name.toList, rest) := by
  refine cutAt_eq_some_iff.2 ⟨?_, scheme.marker_eq.2⟩
  rw [scheme.marker_eq.1, List.append_assoc, List.singleton_append]

theorem dot_mem_of_occurs (scheme : ColorScheme) (t : List Char)
    (h : scheme.marker.toList <:+: t) : '.' ∈ t := by
  refine h.subset ?_
  rw [scheme.marker_eq.1]
  exact List.mem_append_right _ (List.mem_singleton_self _)

/-- At the front a marker is detected exactly if the token opens with it, and the rest is
    what is behind it. -/
theorem detect_leading_eq_some_iff (t rest : List Char) (scheme : ColorScheme) :
    detect .leading t = some (scheme, rest) ↔ t = scheme.marker.toList ++ rest := by
  constructor
  · intro h
    rcases List.exists_of_findSome?_eq_some h with ⟨found, _, hfound⟩
    rcases Option.map_eq_some_iff.1 hfound with ⟨after, hdrop, hpair⟩
    rw [← (Prod.mk.inj hpair).1, ← (Prod.mk.inj hpair).2]
    exact dropLead?_eq_some_iff.1 hdrop
  · rintro rfl
    have hopens : dropLead? scheme.marker.toList (scheme.marker.toList ++ rest) = some rest :=
      dropLead?_eq_some_iff.2 rfl
    rw [detect, all, List.findSome?_cons]
    cases scheme with
    | dark => rw [hopens]; rfl
    | light =>
        -- The dark marker is tried first and fails at its first character.
        have hdark : dropLead? dark.marker.toList (light.marker.toList ++ rest) = none := rfl
        rw [hdark, Option.map_none, List.findSome?_cons, hopens]
        rfl

/-- The dark marker is found if it occurs, and the light one if it occurs and the dark one
    does not. -/
theorem find?_occursIn (t : List Char) (scheme : ColorScheme) :
    all.find? (fun other => occursIn other.marker.toList t) = some scheme ↔
      scheme.marker.toList <:+: t ∧ (scheme = light → ¬ dark.marker.toList <:+: t) := by
  rw [← occursIn_eq_true_iff, ← occursIn_eq_true_iff, all, List.find?_cons]
  cases hdark : occursIn dark.marker.toList t with
  | true =>
      -- The search ends with the dark marker, before the light one is tried.
      cases scheme with
      | dark => simp only [hdark, reduceCtorEq, false_implies, and_self]
      | light => simp only [Option.some.injEq, reduceCtorEq, not_true_eq_false, forall_const,
          and_false]
  | false =>
      rw [List.find?_cons]
      cases hlight : occursIn light.marker.toList t with
      | true =>
          cases scheme with
          | dark => simp only [hdark, Option.some.injEq, reduceCtorEq, Bool.false_eq_true, false_and]
          | light => simp only [hlight, Bool.false_eq_true, not_false_eq_true, implies_true,
              and_self]
      | false =>
          rw [List.find?_nil]
          cases scheme with
          | dark => simp only [hdark, reduceCtorEq, Bool.false_eq_true, false_and]
          | light => simp only [hlight, reduceCtorEq, Bool.false_eq_true, false_and]

/-- At any place a marker is detected exactly if it occurs, the light one only if the dark
    one does not, and the rest is what is behind the first dot. -/
theorem detect_anywhere_eq_some_iff (t rest : List Char) (scheme : ColorScheme) :
    detect .anywhere t = some (scheme, rest) ↔
      (scheme.marker.toList <:+: t ∧ (scheme = light → ¬ dark.marker.toList <:+: t)) ∧
      ∃ before, t = before ++ '.' :: rest ∧ '.' ∉ before := by
  rw [← find?_occursIn, detect]
  cases hfind : all.find? (fun other => occursIn other.marker.toList t) with
  | none => simp only [reduceCtorEq, false_and]
  | some found =>
      simp only [Option.map_eq_some_iff, Prod.mk.injEq, Prod.exists, cutAt_eq_some_iff,
        Option.some.injEq]
      constructor
      · rintro ⟨before, after, hcut, hscheme, rfl⟩
        exact ⟨hscheme, before, hcut⟩
      · rintro ⟨hscheme, before, hcut⟩
        exact ⟨before, rest, hcut, hscheme, rfl⟩

/-- At any place nothing is detected exactly if no marker occurs. Where one does, it brings
    the dot that the cut needs. -/
theorem detect_anywhere_eq_none_iff (t : List Char) :
    detect .anywhere t = none ↔ ∀ scheme : ColorScheme, ¬ scheme.marker.toList <:+: t := by
  rw [detect]
  cases hfind : all.find? (fun other => occursIn other.marker.toList t) with
  | none =>
      refine iff_of_true rfl (fun scheme hmarker => ?_)
      have hall : scheme ∈ all := by cases scheme <;> decide
      exact List.find?_eq_none.1 hfind scheme hall ((occursIn_eq_true_iff _ _).2 hmarker)
  | some found =>
      have hmarker := ((find?_occursIn t found).1 hfind).1
      refine iff_of_false ?_ (fun hnone => hnone found hmarker)
      rw [Option.map_eq_none_iff, cutAt_eq_none_iff, not_not]
      exact found.dot_mem_of_occurs t hmarker

/-- What is left of a token without its marker is an end of it, wherever the marker is. -/
theorem suffix_of_detect (m : SchemeMatch) (t rest : List Char) (scheme : ColorScheme)
    (h : detect m t = some (scheme, rest)) : rest <:+ t := by
  cases m with
  | anywhere =>
      rcases ((detect_anywhere_eq_some_iff t rest scheme).1 h).2 with ⟨before, hcut⟩
      exact suffix_of_cutAt '.' t before rest (cutAt_eq_some_iff.2 hcut)
  | leading =>
      rw [(detect_leading_eq_some_iff t rest scheme).1 h]
      exact List.suffix_append _ rest

/-- What is detected at the front is detected at any place as well, and the same rest is
    left. Only the scheme is another one if the dark marker stands behind a light one. -/
theorem detect_anywhere_of_leading (t rest : List Char) (scheme : ColorScheme)
    (h : detect .leading t = some (scheme, rest)) :
    detect .anywhere t =
      some (if scheme = light ∧ dark.marker.toList <:+: t then dark else scheme, rest) := by
  rw [detect_leading_eq_some_iff] at h
  -- The first dot is that of the marker, so the cut takes off the marker.
  have hcut := cutAt_eq_some_iff.1 (scheme.cutAt_marker_append rest)
  have hoccurs : scheme.marker.toList <:+: t := by
    rw [h]
    exact (List.prefix_append _ _).isInfix
  rw [← h] at hcut
  refine (detect_anywhere_eq_some_iff t rest _).2 ⟨?_, scheme.name.toList, hcut⟩
  by_cases hboth : scheme = light ∧ dark.marker.toList <:+: t
  · rw [if_pos hboth]
    exact ⟨hboth.2, fun hlight => absurd hlight (by decide)⟩
  · rw [if_neg hboth]
    exact ⟨hoccurs, fun hlight hdark => hboth ⟨hlight, hdark⟩⟩

/-- How far the two ways to recognise a scheme agree. If a marker opens the token, both
    leave the same rest, and they name the same scheme but where the dark marker stands
    behind a light one. If no marker is found at any place, which means that none occurs,
    none is found at the front. And what is found at any place is dark exactly if the dark
    marker occurs, and light only if the light one does, with the rest cut off at the first
    dot of the token. -/
theorem detect_leading_anywhere (t : List Char) :
    (∀ scheme rest, detect .leading t = some (scheme, rest) →
      ∃ scheme', detect .anywhere t = some (scheme', rest) ∧
        scheme' = if scheme = light ∧ "dark.".toList <:+: t then dark else scheme) ∧
    (detect .anywhere t = none → detect .leading t = none) ∧
    (detect .anywhere t = none ↔ ¬ "dark.".toList <:+: t ∧ ¬ "light.".toList <:+: t) ∧
    ∀ scheme rest, detect .anywhere t = some (scheme, rest) →
      (∃ before, t = before ++ '.' :: rest ∧ '.' ∉ before) ∧
      (scheme = dark ↔ "dark.".toList <:+: t) ∧ (scheme ≠ dark → "light.".toList <:+: t) := by
  refine ⟨?_, ?_, ?_, ?_⟩
  · exact fun scheme rest h => ⟨_, detect_anywhere_of_leading t rest scheme h, rfl⟩
  · intro hnone
    cases hfound : detect .leading t with
    | none => rfl
    | some found =>
        rw [detect_anywhere_of_leading t found.2 found.1 hfound] at hnone
        exact absurd hnone (by simp only [reduceCtorEq, not_false_eq_true])
  · rw [detect_anywhere_eq_none_iff]
    constructor
    · exact fun hnone => ⟨hnone dark, hnone light⟩
    · intro hboth scheme
      cases scheme with
      | dark => exact hboth.1
      | light => exact hboth.2
  · intro scheme rest h
    rcases (detect_anywhere_eq_some_iff t rest scheme).1 h with ⟨⟨hmarker, hwins⟩, hcut⟩
    refine ⟨hcut, ?_⟩
    cases scheme with
    | dark => exact ⟨iff_of_true rfl hmarker, fun hne => absurd rfl hne⟩
    | light => exact ⟨iff_of_false (by decide) (hwins rfl), fun _ => hmarker⟩

-- The light marker opens the token and the dark one stands in the value. Of the last token
-- neither way takes off a marker: the cut is at the dot in front of it.
example :
    detect .leading "light.a_dark.b".toList = some (light, "a_dark.b".toList) ∧
    detect .anywhere "light.a_dark.b".toList = some (dark, "a_dark.b".toList) ∧
    detect .leading "x.light.y".toList = none ∧
    detect .anywhere "x.light.y".toList = some (light, "light.y".toList) := by
  decide

end ColorScheme

end AtomicCss
