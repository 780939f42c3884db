import PlatformBridge.Proofs.Settings.Identity

/-!
# Identities from Accepted Settings

Settings are checked when they are loaded, and the identity of the package is
put together later. In between, the name may change: one that is given from
outside comes before the one that is set, and while no name is set the
settings are checked under one that stands in for it.

This makes no difference to what else is set. The check of an identity looks
at its parts one by one, and all parts but the name are those that were
checked before, under whatever name. So settings that were accepted fail later
for their name or not at all, and what comes of them is accepted where the
package is made, too.

`identity_eq_of_check` has the outcome as an equation, with a match on which
name there is. Success, failure and the text of the error are all read off it,
so the result about accepted settings is put together without another look at
the checks.

## Main definitions

* `namelessSettings`: Settings that leave the name to be given from outside.

## Theorems

* `PackageIdentity.check_eq_checkName`: Where all else is accepted, an identity
  is judged by its name.
* `PackageSettings.check_eq_ok_iff`: What is accepted of a package.
* `PackageSettings.identity_eq_of_check`: What becomes of settings that were
  accepted.
* `Settings.identity_of_check`: Settings that were accepted fail for their name
  or not at all.
-/

namespace PlatformBridge

/-- An identity is judged by its name, where all else of it was accepted under another name. -/
theorem PackageIdentity.check_eq_checkName (p other : PackageIdentity)
    (hother : other.check = .ok ()) (hversion : p.version = other.version)
    (hdescription : p.description = other.description) : p.check = checkName p.name := by
  cases hname : checkName p.name with
  | error e =>
      unfold check
      rw [hname]
      rfl
  | ok _ =>
      have hparts := ((check_eq_ok_iff other).mp hother).2
      rw [← hversion, ← hdescription] at hparts
      exact (check_eq_ok_iff p).mpr ⟨hname, hparts⟩

namespace PackageSettings

variable (s : PackageSettings)

/-- What is set of a package is accepted if the name and the version constraint are, as far as they
    are set, and if there is an identity under this name or the one that stands in. -/
theorem check_eq_ok_iff : s.check = .ok () ↔ (∀ name ∈ s.name, checkName name = .ok ())
    ∧ (∀ value ∈ s.dartSdk, checkConstraint value = .ok ())
    ∧ (s.withName (s.name.getD placeholderName)).check = .ok () := by
  unfold check
  rw [Results.bind_eq_ok]
  simp only [forM_eq_ok_iff, Results.mapError_eq_ok]
  constructor
  · rintro ⟨_, hname, h⟩
    rcases Results.bind_eq_ok.mp h with ⟨p, hp, _⟩
    rcases (s.identity_eq_ok_iff _ p).mp hp with ⟨chosen, hchosen, hconstraint, hcheck, _⟩
    cases hchosen
    exact ⟨hname, hconstraint, hcheck⟩
  · rintro ⟨hname, hconstraint, hcheck⟩
    exact ⟨⟨⟩, hname, Results.bind_eq_ok.mpr
      ⟨_, (s.identity_eq_ok_iff _ _).mpr ⟨_, rfl, hconstraint, hcheck, rfl⟩, rfl⟩⟩

/-- Of settings that were accepted there comes an identity under every name that is one, and an
    objection to the name under any other. -/
theorem identity_eq_of_check (h : s.check = .ok ()) (name : Option String) :
    s.identity name = match name.or s.name with
      | none => .error
          (.invalid "package name must be given on the command line or as package.name")
      | some chosen => match nameDefect? chosen with
        | none => .ok (s.withName chosen)
        | some reason =>
          .error (.invalid ("package: " ++ (PackageError.invalidName chosen reason).message)) := by
  rcases s.check_eq_ok_iff.mp h with ⟨_, hconstraint, haccepted⟩
  cases hchosen : name.or s.name with
  | none =>
      unfold identity
      rw [hchosen]
      rfl
  | some chosen =>
      -- Everything but the name has passed its check already.
      have hcheck := (s.withName chosen).check_eq_checkName _ haccepted rfl rfl
      dsimp only
      cases hdefect : nameDefect? chosen with
      | none =>
          refine (s.identity_eq_ok_iff name _).mpr ⟨chosen, hchosen, hconstraint, ?_, rfl⟩
          rw [hcheck, checkName, withName, hdefect]
      | some reason =>
          have hsteps : s.identity name = (s.dartSdk.forM checkConstraint >>= fun _ =>
              ((s.withName chosen).check.mapError fun e =>
                SettingsError.invalid ("package: " ++ e.message)) >>= fun _ =>
              .ok (s.withName chosen)) := by
            unfold identity
            rw [hchosen]
            rfl
          rw [hsteps, (forM_eq_ok_iff _ _ (u := ⟨⟩)).mpr hconstraint, hcheck, checkName, withName,
            hdefect]
          rfl

end PackageSettings

/-- Settings that were accepted fail later for the name of the package or not at all. There is an
    identity just if a name is given or set and that is one; it has this name, and otherwise what is
    set or the defaults; and it is accepted where the package is made. If there is none, then no
    name is there or what is wrong with the name is told. -/
theorem Settings.identity_of_check (s : Settings) (h : s.check = .ok ()) (name : Option String) :
    ((∃ p, s.package.identity name = .ok p)
        ↔ ∃ chosen, name.or s.package.name = some chosen ∧ checkName chosen = .ok ())
      ∧ (∀ p, s.package.identity name = .ok p → name.or s.package.name = some p.name
        ∧ p.description = s.package.description.getD "Flutnet platform bridge"
        ∧ p.version = s.package.version.getD "1.0.0"
        ∧ p.dartSdk = s.package.dartSdk.getD ">=3.0.0 <4.0.0"
        ∧ p.check = .ok ())
      ∧ ∀ e, s.package.identity name = .error e →
        (name.or s.package.name = none
          ∧ e = .invalid "package name must be given on the command line or as package.name")
        ∨ ∃ chosen reason, name.or s.package.name = some chosen
          ∧ nameDefect? chosen = some reason
          ∧ e = .invalid ("package: invalid package name `" ++ chosen ++ "`: " ++ reason) := by
  rcases Results.bind_eq_ok.mp h with ⟨_, hpackage, _⟩
  have haccepted := fun p hp => (s.package.check_of_identity name p hp).1
  rw [s.package.identity_eq_of_check hpackage name] at haccepted ⊢
  -- No name is given, or it has a defect, or it passes; nothing else can go wrong.
  cases hchosen : name.or s.package.name with
  | none =>
      refine ⟨iff_of_false nofun nofun, nofun, fun e he => Or.inl ⟨rfl, ?_⟩⟩
      exact (Except.error.inj he).symm
  | some chosen =>
      rw [hchosen] at haccepted
      dsimp only at haccepted ⊢
      cases hdefect : nameDefect? chosen with
      | none =>
          rw [hdefect] at haccepted
          have hname : checkName chosen = .ok () := by rw [checkName, hdefect]
          refine ⟨iff_of_true ⟨_, rfl⟩ ⟨chosen, rfl, hname⟩, fun p hp => ?_, nofun⟩
          cases hp
          exact ⟨rfl, rfl, rfl, rfl, haccepted _ rfl⟩
      | some reason =>
          refine ⟨iff_of_false nofun ?_, nofun, fun e he =>
            Or.inr ⟨chosen, reason, rfl, hdefect, (Except.error.inj he).symm⟩⟩
          rintro ⟨_, hsame, hname⟩
          rw [← Option.some.inj hsame, checkName, hdefect] at hname
          cases hname

/-- Settings without a name. -/
def namelessSettings : Settings :=
  ⟨⟨none, some "Clocks and \"alarms\"", some "0.2.10-beta.1", some "^3.5.0"⟩,
    ⟨some " out ", true⟩, .debug⟩

/-- Settings without a name are accepted, and give an identity under a name that is given. -/
theorem Settings.identity_of_namelessSettings :
    namelessSettings.check = .ok ()
      ∧ (∃ p, namelessSettings.package.identity (some "from_cli") = .ok p)
      ∧ (∀ p, namelessSettings.package.identity (some "from_cli") = .ok p →
        p.name = "from_cli" ∧ p.version = "0.2.10-beta.1" ∧ p.check = .ok ())
      ∧ (¬ ∃ p, namelessSettings.package.identity none = .ok p)
      ∧ ∀ e, namelessSettings.package.identity (some "class") = .error e →
        e.message = "invalid config: package: invalid package name `class`: "
          ++ "name is a Dart reserved word" := by
  have h : namelessSettings.check = .ok () := rfl
  have hgiven := identity_of_check namelessSettings h (some "from_cli")
  refine ⟨h, hgiven.1.mpr ⟨_, rfl, rfl⟩, fun p hp => ?_, fun hp => ?_, fun e he => ?_⟩
  · rcases hgiven.2.1 p hp with ⟨hname, _, hversion, _, hcheck⟩
    exact ⟨(Option.some.inj hname).symm, hversion, hcheck⟩
  · rcases (identity_of_check namelessSettings h none).1.mp hp with ⟨_, hnone, _⟩
    cases hnone
  · rcases (identity_of_check namelessSettings h (some "class")).2.2 e he with
      ⟨hnone, _⟩ | ⟨_, _, hchosen, hdefect, rfl⟩
    · cases hnone
    · cases hchosen
      cases hdefect
      rfl

end PlatformBridge
