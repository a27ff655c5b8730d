import Kworker.Khsl.Args

/-!
# The command line is read as the grammar says
-/

namespace Kworker.Khsl

open Kworker.Lib

variable {env : Env} {opts : Opts}

/-! ## From a command line to what is read -/

/-- What the loop of `parse_args` does for one option. -/
def CliOption.set (o : CliOption) (opts : Opts) : Opts :=
  match o with
  | .help _ => { opts with want_help := true }
  | .version => { opts with want_version := true }
  | .user _ x => { opts with user_override := some x }
  | .cd x => { opts with cd_override := some x }

theorem parse_option (o : CliOption) (rest : List String) :
    parse_args env (o.words ++ rest) opts = parse_args env rest (o.set opts) := by
  rw [parse_args.eq_def]
  cases o with
  | help long => cases long <;> simp [CliOption.words, CliOption.set]
  | version => simp [CliOption.words, CliOption.set]
  | user long x => cases long <;> simp [CliOption.words, CliOption.set]
  | cd x => simp [CliOption.words, CliOption.set]

theorem parse_options (os : List CliOption) (rest : List String) :
    parse_args env (os.flatMap CliOption.words ++ rest) opts =
      parse_args env rest (os.foldl (fun opts o => o.set opts) opts) := by
  induction os generalizing opts with
  | nil => rfl
  | cons o os ih => rw [List.flatMap_cons, List.append_assoc, parse_option, ih, List.foldl_cons]

theorem parse_bare {a : String} (h : startsWithDash a = false) (rest : List String) :
    parse_args env (a :: rest) opts = .ok { opts with run_mode := .exec, exec_argv := a :: rest } := by
  have hne : ∀ b, startsWithDash b = true → a ≠ b := by
    rintro b hb rfl
    rw [h] at hb
    cases hb
  have hdash : ¬ a.toList.head? = some '-' := by simpa [startsWithDash] using h
  rw [parse_args.eq_def]
  simp [hne "--help" rfl, hne "-h" rfl, hne "--version" rfl, hne "--user" rfl, hne "-u" rfl,
    hne "--cd" rfl, hne "-e" rfl, hne "--exec" rfl, hne "--" rfl, hdash]

theorem parse_tail (t : Tail) (h : opts.run_mode = .interactive ∧ opts.exec_argv = []) :
    parse_args env t.words opts = .ok { opts with run_mode := t.run_mode, exec_argv := t.exec_argv } := by
  cases t with
  | nothing =>
      obtain ⟨hmode, hargv⟩ := h
      rw [Tail.run_mode, Tail.exec_argv, ← hmode, ← hargv]
      rfl
  | after separator command args =>
      rw [parse_args.eq_def]
      cases separator <;> simp [Tail.words, Separator.word, Tail.run_mode, Tail.exec_argv]
  | bare command args h => exact parse_bare h args

/-! ## What the options leave -/

theorem set_all (os : List CliOption) (opts : Opts) : os.foldl (fun opts o => o.set opts) opts =
    { opts with
      want_help := opts.want_help || os.any (·.isHelp)
      want_version := opts.want_version || os.any (·.isVersion)
      user_override := (os.filterMap (·.user?)).getLast?.or opts.user_override
      cd_override := (os.filterMap (·.cd?)).getLast?.or opts.cd_override } := by
  induction os generalizing opts with
  | nil => simp
  | cons o os ih =>
      rw [List.foldl_cons, ih]
      cases o with
      | help long => simp [CliOption.set, CliOption.isHelp, CliOption.isVersion, CliOption.user?, CliOption.cd?]
      | version => simp [CliOption.set, CliOption.isHelp, CliOption.isVersion, CliOption.user?, CliOption.cd?]
      | user long x =>
          simp [CliOption.set, CliOption.isHelp, CliOption.isVersion, CliOption.user?, CliOption.cd?,
            List.getLast?_cons]
      | cd x =>
          simp [CliOption.set, CliOption.isHelp, CliOption.isVersion, CliOption.user?, CliOption.cd?,
            List.getLast?_cons]

theorem parse_commandLine (env : Env) (c : CommandLine) : parse_args env c.words {} = .ok c.opts := by
  rw [CommandLine.words, parse_options, parse_tail, set_all]
  · simp [CommandLine.opts]
  · rw [set_all]
    exact ⟨rfl, rfl⟩

/-! ## From what is read to a command line -/

theorem exists_cons {words : List String} (o : CliOption) (h : ∃ c : CommandLine, c.words = words) :
    ∃ c : CommandLine, c.words = o.words ++ words := by
  obtain ⟨c, rfl⟩ := h
  exact ⟨{ c with options := o :: c.options }, by simp [CommandLine.words]⟩

theorem exists_tail (t : Tail) : ∃ c : CommandLine, c.words = t.words :=
  ⟨{ options := [], tail := t }, rfl⟩

/-- Whatever is read, it is a command line or an error. -/
theorem parse_args_cases (env : Env) (words : List String) (opts : Opts) :
    (∃ c : CommandLine, c.words = words) ∨ ∃ text, parse_args env words opts = .error (2, text) := by
  fun_induction parse_args env words opts with
  | case1 opts => exact Or.inl (exists_tail .nothing)
  | case2 a rest opts h ih =>
      refine ih.imp_left fun hrest => ?_
      rcases h with rfl | rfl
      · exact exists_cons (.help true) hrest
      · exact exists_cons (.help false) hrest
  | case3 rest opts h ih => exact ih.imp_left (exists_cons .version)
  | case4 a opts _ _ h => exact Or.inr ⟨_, rfl⟩
  | case5 a opts _ _ h x rest ih =>
      refine ih.imp_left fun hrest => ?_
      rcases h with rfl | rfl
      · exact exists_cons (.user true x) hrest
      · exact exists_cons (.user false x) hrest
  | case6 opts => exact Or.inr ⟨_, rfl⟩
  | case7 opts x rest _ _ _ ih => exact ih.imp_left (exists_cons (.cd x))
  | case8 a opts => exact Or.inr ⟨_, rfl⟩
  | case9 a rest opts _ _ _ _ h hne =>
      obtain ⟨command, args, rfl⟩ := List.exists_cons_of_ne_nil hne
      rcases h with rfl | rfl
      · exact Or.inl (exists_tail (.after .e command args))
      · exact Or.inl (exists_tail (.after .exec command args))
  | case10 opts => exact Or.inr ⟨_, rfl⟩
  | case11 rest opts hne =>
      obtain ⟨command, args, rfl⟩ := List.exists_cons_of_ne_nil hne
      exact Or.inl (exists_tail (.after .dashes command args))
  | case12 a rest opts => exact Or.inr ⟨_, rfl⟩
  | case13 a rest opts => exact Or.inr ⟨_, rfl⟩
  | case14 a rest opts _ _ _ _ _ _ h =>
      exact Or.inl (exists_tail (.bare a rest (by simpa [startsWithDash] using h)))

/-! ## The suffix -/

theorem exec_argv_suffix (c : CommandLine) : c.opts.exec_argv <:+ c.words := by
  cases htail : c.tail with
  | nothing => simp [CommandLine.opts, htail, Tail.exec_argv]
  | after separator command args =>
      refine ⟨c.options.flatMap CliOption.words ++ [separator.word], ?_⟩
      simp [CommandLine.opts, CommandLine.words, htail, Tail.exec_argv, Tail.words]
  | bare command args h =>
      refine ⟨c.options.flatMap CliOption.words, ?_⟩
      simp [CommandLine.opts, CommandLine.words, htail, Tail.exec_argv, Tail.words]

theorem exec_iff (c : CommandLine) :
    (c.opts.run_mode = .exec ↔ c.tail ≠ .nothing) ∧
    (c.opts.run_mode = .exec → c.opts.exec_argv ≠ []) := by
  cases htail : c.tail <;> simp [CommandLine.opts, htail, Tail.run_mode, Tail.exec_argv]

end Kworker.Khsl
