import PlatformBridge.Proofs.Package.Identity
import PlatformBridge.Settings.Basic

/-!
# Identities from Settings

The identity of a package is put together from what is set and from defaults,
and checked as a whole. Only the version constraint is checked apart, and only
if it is set: it must not be blank or too long, and no control character,
quote or mark of a comment may be in it.

The default constraint is not checked, and would pass. So it makes no
difference afterwards whether a constraint was set: the one in an identity from
settings is always as good as checked. Those who write the constraint into a
file need this and nothing else.

## Main definitions

* `PackageSettings.withName`: What the settings and the defaults give under a
  name.

## Theorems

* `checkConstraint_eq_ok_iff`: What is accepted as a version constraint.
* `PackageSettings.forM_eq_ok_iff`: What may be left out is checked if it is
  there.
* `PackageSettings.identity_eq_ok_iff`: The identity that the settings give.
* `PackageSettings.check_of_identity`: Everything in an identity passes its
  check.
-/

namespace PlatformBridge

/-- A version constraint is accepted if it is a short text that is not blank and has no control
    characters, quotes and marks of comments in it. -/
theorem checkConstraint_eq_ok_iff (value : String) :
    checkConstraint value = .ok () ↔ Text.isBlank value = false
      ∧ Text.byteLength value.toList ≤ maxConstraintLength
      ∧ ∀ c ∈ value.toList, isControl c = false ∧ c ≠ '"' ∧ c ≠ '\'' ∧ c ≠ '#' := by
  unfold checkConstraint
  simp only [Results.unless_bind_eq_ok, Results.unless_eq_ok, Bool.not_eq_true, Nat.not_lt,
    List.any_eq_false, Bool.or_eq_true, decide_eq_true_eq, not_or, and_assoc, ne_eq]
  refine and_congr_right fun _ => and_congr_right fun _ => ?_
  exact and_iff_left rfl

namespace PackageSettings

variable (s : PackageSettings)

-- What may be left out is checked only if it is there.
theorem forM_eq_ok_iff {α : Type} (check : α → Except SettingsError Unit) (value : Option α)
    {u : PUnit} : value.forM check = .ok u ↔ ∀ x ∈ value, check x = .ok () := by
  cases value with
  | none => exact iff_of_true rfl nofun
  | some x => exact ⟨fun h _ hx => Option.mem_some.mp hx ▸ h, fun h => h x rfl⟩

/-- What the settings and the defaults give under a name. -/
def withName (name : String) : PackageIdentity where
  name
  description := s.description.getD (PackageIdentity.ofName name).description
  version := s.version.getD (PackageIdentity.ofName name).version
  dartSdk := s.dartSdk.getD (PackageIdentity.ofName name).dartSdk

/-- There is an identity if a name is given and everything passes its check. -/
theorem identity_eq_ok_iff (name : Option String) (p : PackageIdentity) :
    s.identity name = .ok p ↔ ∃ chosen, name.or s.name = some chosen
      ∧ (∀ value ∈ s.dartSdk, checkConstraint value = .ok ())
      ∧ (s.withName chosen).check = .ok () ∧ s.withName chosen = p := by
  unfold identity
  cases name.or s.name with
  | none => exact iff_of_false nofun fun ⟨_, h, _⟩ => nomatch h
  | some chosen =>
      simp only [Results.bind_eq_ok, Results.mapError_eq_ok, Option.some.injEq, exists_eq_left']
      constructor
      · rintro ⟨⟨⟩, hconstraint, ⟨⟩, hcheck, hp⟩
        exact ⟨(forM_eq_ok_iff _ _).mp hconstraint, hcheck, Except.ok.inj hp⟩
      · rintro ⟨hconstraint, hcheck, rfl⟩
        exact ⟨⟨⟩, (forM_eq_ok_iff _ _).mpr hconstraint, ⟨⟩, hcheck, rfl⟩

/-- An identity from settings is accepted as a whole, and so is its constraint: the default one
    would pass the check too. -/
theorem check_of_identity (name : Option String) (p : PackageIdentity)
    (h : s.identity name = .ok p) :
    p.check = .ok () ∧ checkConstraint p.dartSdk = .ok () := by
  rcases (s.identity_eq_ok_iff name p).mp h with ⟨chosen, _, hconstraint, hcheck, rfl⟩
  have hdefault : checkConstraint ">=3.0.0 <4.0.0" = .ok () := by decide
  refine ⟨hcheck, ?_⟩
  unfold withName
  cases hsdk : s.dartSdk with
  | none => exact hdefault
  | some value => exact hconstraint value hsdk

end PackageSettings

end PlatformBridge
