import Kworker.Khsl.Main

/-!
# The credentials that khsl runs programs with
-/

namespace Kworker.Khsl

open Kworker.Lib Kworker.Posix

/-! ## The steps as root -/

section

variable {ok : Bool} {id : Nat} {gs : List Nat} {cred : Cred}

theorem setgroups_root (h : cred.privileged = true) :
    setgroups ok gs cred = if ok then some { cred with groups := gs } else none := by
  simp [setgroups, h]

theorem setgid_root (h : cred.privileged = true) :
    setgid ok id cred = if ok then some { cred with rgid := id, egid := id, sgid := id } else none := by
  cases ok <;> simp [setgid, h]

theorem setuid_root (h : cred.privileged = true) :
    setuid ok id cred = if ok then some { cred with ruid := id, euid := id, suid := id } else none := by
  cases ok <;> simp [setuid, h]

end

/-! ## The change of the user -/

section

variable {c : Calls} {env : Env} {cred : Cred}

theorem given_khsl_user (opts : Opts) : (apply_user_cli_override opts env).given "KHSL_USER" =
    (opts.user_override.filter (· ≠ "")).or (env.given "KHSL_USER") := by
  unfold apply_user_cli_override
  cases opts.user_override with
  | none => rfl
  | some user =>
      by_cases h : user = ""
      · simp [h, Option.filter]
      · simp [h, Option.filter, Env.given_set_self]

/-- The language of the texts does not depend on `-u`. -/
theorem failureMessage_override (opts : Opts) (user : String) :
    failureMessage c (apply_user_cli_override opts env) user cred = failureMessage c env user cred := by
  have hgiven : (apply_user_cli_override opts env).given "KHSL_HELP" = env.given "KHSL_HELP" := by
    unfold apply_user_cli_override
    cases opts.user_override with
    | none => rfl
    | some name =>
        by_cases h : name = ""
        · simp [h]
        · simp [h, Env.given, Env.set]
  have htext : ∀ en zh, khsl_t (apply_user_cli_override opts env) en zh = khsl_t env en zh := by
    intro en zh
    rw [khsl_t, khsl_t, help_wants_zh, help_wants_zh, hgiven]
  unfold failureMessage passwdNotFound
  simp only [htext]

theorem try_drop_privileges_succeeds (hroot : cred.ruid = 0 ∨ cred.euid = 0)
    (h : SwitchSucceeds c ((env.given "KHSL_USER").getD "shell") cred) : ∃ pw,
    c.getpwnam ((env.given "KHSL_USER").getD "shell") = some pw ∧
    (try_drop_privileges c env cred).cred.Are pw.pw_uid pw.pw_gid
      (c.grouplist pw.pw_name pw.pw_gid) := by
  obtain ⟨⟨pw, hpw⟩, hpriv, hig, hsg, hsu⟩ := h
  have hgo : ¬ (cred.ruid ≠ 0 ∧ cred.euid ≠ 0) := by omega
  refine ⟨pw, hpw, ?_⟩
  unfold try_drop_privileges
  simp only [hgo, if_false, hpw, setgroups_root hpriv, hig, if_true]
  rw [setgid_root (by simpa [Cred.privileged] using hpriv)]
  simp only [hsg, if_true]
  rw [setuid_root (by simpa [Cred.privileged] using hpriv)]
  simp only [hsu, if_true]
  rfl

theorem try_drop_privileges_fails (hroot : cred.ruid = 0 ∨ cred.euid = 0)
    (h : ¬ SwitchSucceeds c ((env.given "KHSL_USER").getD "shell") cred) :
    (try_drop_privileges c env cred).cred =
        credBeforeFailure c ((env.given "KHSL_USER").getD "shell") cred ∧
      (try_drop_privileges c env cred).stderr =
        [failureMessage c env ((env.given "KHSL_USER").getD "shell") cred] := by
  have hgo : ¬ (cred.ruid ≠ 0 ∧ cred.euid ≠ 0) := by omega
  unfold try_drop_privileges credBeforeFailure failureMessage
  simp only [hgo, if_false]
  cases hpw : c.getpwnam ((env.given "KHSL_USER").getD "shell") with
  | none => simp
  | some pw =>
      simp only
      by_cases hpriv : cred.privileged = true
      · simp only [SwitchSucceeds, hpw, Option.some.injEq, exists_eq', hpriv, true_and] at h
        rw [setgroups_root hpriv]
        cases hig : c.initgroupsOk with
        | false => simp
        | true =>
            simp only [if_true, hpriv, Bool.true_eq_false, or_self, if_false]
            rw [setgid_root (by simpa [Cred.privileged] using hpriv)]
            cases hsg : c.setgidOk with
            | false => simp
            | true =>
                simp only [if_true, Bool.true_eq_false, if_false]
                rw [setuid_root (by simpa [Cred.privileged] using hpriv)]
                cases hsu : c.setuidOk with
                | false => simp
                | true => exact absurd ⟨hig, hsg, hsu⟩ h
      · rw [Bool.not_eq_true] at hpriv
        simp [setgroups_eq_none hpriv, hpriv]

theorem credBeforeFailure_user (user : String) :
    (credBeforeFailure c user cred).ruid = cred.ruid ∧
    (credBeforeFailure c user cred).euid = cred.euid ∧
    (credBeforeFailure c user cred).suid = cred.suid := by
  unfold credBeforeFailure
  cases c.getpwnam user with
  | none => simp
  | some pw =>
      simp only
      split
      · simp
      · split <;> simp

end

/-! ## What is reached -/

theorem runExec_reached {c : Calls} {argv : List String} {cred : Cred} {env : Env} {r : Reached}
    (h : r ∈ (runExec c argv cred env).reached) : r.cred = cred := by
  unfold runExec at h
  split at h
  · cases h
  · split at h
    · rw [List.mem_singleton.mp h]
    · rw [List.mem_singleton.mp h]

theorem runInteractive_reached {c : Calls} {cred : Cred} {env : Env} {r : Reached}
    (h : r ∈ (runInteractive c cred env).reached) : r.cred = cred := by
  unfold runInteractive at h
  split at h
  · rw [List.mem_singleton.mp h]
  · split at h
    · rw [List.mem_singleton.mp h]
    · rcases List.mem_cons.mp h with rfl | h
      · rfl
      · rw [List.mem_singleton.mp h]

/-- Everything is reached with what `try_drop_privileges` has left, and after what it has printed. -/
theorem runAs_reached {c : Calls} {opts : Opts} {env : Env} {cred : Cred} {r : Reached}
    (h : r ∈ (runAs c opts env cred).reached) :
    r.cred = (try_drop_privileges c (apply_user_cli_override opts env) cred).cred ∧
    (try_drop_privileges c (apply_user_cli_override opts env) cred).stderr <+:
      (runAs c opts env cred).stderr := by
  unfold runAs at h ⊢
  simp only at h ⊢
  split at h
  · cases h
  · rename_i hcd
    simp only [hcd, if_false]
    refine ⟨?_, List.prefix_append _ _⟩
    cases hmode : opts.run_mode with
    | exec => rw [hmode] at h; exact runExec_reached h
    | interactive => rw [hmode] at h; exact runInteractive_reached h

theorem main_reached {c : Calls} {args : List String} {env : Env} {cred : Cred} {opts : Opts}
    (hargs : parse_args env args {} = .ok opts) {r : Reached}
    (h : r ∈ (main c args env cred).reached) :
    r ∈ (runAs c opts env cred).reached ∧ main c args env cred = runAs c opts env cred := by
  unfold main at h ⊢
  simp only [hargs] at h ⊢
  split at h
  · cases h
  · rename_i hrun
    simp only [hrun, if_false]
    exact ⟨h, trivial⟩

end Kworker.Khsl
