import Mathlib.Data.List.Basic

/-!
# `execvp`: the `PATH` search

`execvp(file, argv)` (`src/libc/unistd/execvp.c`) runs a file name without a `/` from the
first directory of `$PATH` (or `DEFAULT_PATH`, `"/bin:/usr/bin"`) where `stat` finds it
with an execute bit, and hands any other name to `execve` as it is. The directories come
from `strtok_r(xpath, ":", &last)`, whose body is not in the sources, only its
declaration; it is modelled by the POSIX definition, `strspn` then `strpbrk`. A run of
delimiters is one separator there, so the loop never sees an empty token: an empty
component of `PATH` (a leading or trailing colon, or two adjacent ones) is skipped, where
POSIX has it name the current directory.

The file decides which `execve` the call makes, if any, as a search over the candidate
paths (`firstRunnable`): the candidates are the non-empty components in order
(`execvp_searches_nonempty_components`), and a `PATH` with an empty component can miss a
program that the search the POSIX way runs (`execvp_skips_empty_component`). What
`execve` itself does, `argv` and `environ` are passed through and not modelled.
-/

set_option autoImplicit false

namespace Toaru
namespace Libc

/-! ## 1. `strtok_r` -/

/-- The body of `strtok_r` is missing from the sources, only its declaration is there;
this is its POSIX definition. `strtok_r(str, delim, &saveptr)` on the
string `str` returns `none` for `NULL`, or the token and what `saveptr` then points to. -/
def strtokR (delim : List Char) (str : List Char) : Option (List Char × List Char) :=
  let str := str.dropWhile (· ∈ delim)
  if str = [] then none
  else some (str.takeWhile (· ∉ delim), (str.dropWhile (· ∉ delim)).drop 1)

theorem strtokR_rest_lt {delim str tok rest : List Char}
    (h : strtokR delim str = some (tok, rest)) : rest.length < str.length := by
  unfold strtokR at h
  dsimp only at h
  split_ifs at h with hs
  obtain ⟨-, rfl⟩ := Prod.mk.inj (Option.some.inj h)
  have h₁ := (@List.dropWhile_suffix _ str fun c => decide (c ∈ delim)).length_le
  have h₂ := (@List.dropWhile_suffix _ (str.dropWhile (· ∈ delim))
    fun c => decide (c ∉ delim)).length_le
  have h₃ := List.length_pos_of_ne_nil hs
  rw [List.length_drop]
  omega

/-- The tokens `strtok_r` finds in a string, the POSIX way: the components between
delimiters, empty ones left out. -/
def tokens (delim str : List Char) : List (List Char) :=
  (str.splitOnP (· ∈ delim)).filter (· ≠ [])

theorem tokens_dropWhile (delim : List Char) :
    ∀ str : List Char, tokens delim (str.dropWhile (· ∈ delim)) = tokens delim str
  | [] => rfl
  | c :: str => by
    by_cases hc : c ∈ delim
    · rw [List.dropWhile_cons, if_pos (by simpa using hc), tokens_dropWhile delim str]
      simp [tokens, hc]
    · rw [List.dropWhile_cons, if_neg (by simpa using hc)]

theorem tokens_of_strtokR_none {delim str : List Char} (h : strtokR delim str = none) :
    tokens delim str = [] := by
  unfold strtokR at h
  dsimp only at h
  split_ifs at h with hs
  rw [← tokens_dropWhile, hs]
  rfl

/-- A token `strtok_r` returns is the first of the string's tokens, and the rest are those
of what `saveptr` points to. -/
theorem tokens_of_strtokR_some {delim str tok rest : List Char}
    (h : strtokR delim str = some (tok, rest)) : tokens delim str = tok :: tokens delim rest := by
  unfold strtokR at h
  dsimp only at h
  split_ifs at h with hs
  obtain ⟨rfl, rfl⟩ := Prod.mk.inj (Option.some.inj h)
  rw [← tokens_dropWhile]
  obtain ⟨c, s, hcs⟩ := List.exists_cons_of_ne_nil hs
  have hc : c ∉ delim := by
    simpa [hcs] using List.head_dropWhile_not (fun c => decide (c ∈ delim)) str hs
  rw [hcs]
  have htok : (c :: s).takeWhile (· ∉ delim) ≠ [] := by simp [List.takeWhile_cons, hc]
  have hall : ∀ x ∈ (c :: s).takeWhile (· ∉ delim), ¬ decide (x ∈ delim) = true :=
    fun x hx h => by
      have hx' := List.mem_takeWhile_imp hx
      exact of_decide_eq_true hx' (of_decide_eq_true h)
  have hsplit := List.takeWhile_append_dropWhile (fun c => decide (c ∉ delim)) (c :: s)
  cases hd : (c :: s).dropWhile (· ∉ delim) with
  | nil =>
    rw [hd, List.append_nil] at hsplit
    rw [tokens, List.splitOnP_eq_single _ _ fun x hx => hall x (by rwa [hsplit]), hsplit]
    simp [tokens]
  | cons sep r =>
    have hsep := List.head_dropWhile_not (fun c => decide (c ∉ delim)) (c :: s)
      (by rw [hd]; exact List.cons_ne_nil _ _)
    simp only [hd, List.head_cons, decide_eq_false_iff_not, not_not] at hsep
    rw [hd] at hsplit
    rw [List.drop_one, List.tail_cons, tokens, tokens]
    conv_lhs => rw [← hsplit, List.splitOnP_first _ _ hall sep (decide_eq_true hsep)]
    exact List.filter_cons_of_pos (by simpa using htok)

/-! ## 2. The search -/

/-- What `execvp` does in the end: call `execve` on a path and return its result, or set
`errno` to `ENOENT` and return -1. -/
inductive Outcome
  | execve (path : List Char)
  | enoent
  deriving DecidableEq, Repr

/-- The file system as `stat` sees it: `some st_mode` where `stat(path, &stat_buf)`
returns 0, `none` where it fails. -/
abbrev Stat := List Char → Option Nat

/-- `DEFAULT_PATH`. -/
def defaultPath : List Char := "/bin:/usr/bin".toList

/-- The loop of `execvp` from `strtok_r(…, ":", &last)` on: each token `p` gives the
candidate `p/file`, skipped when `stat` fails or finds no execute bit (`st_mode & 0111`). -/
def searchPath (stat : Stat) (file last : List Char) : Outcome :=
  match h : strtokR [':'] last with
  | none => .enoent
  | some (p, rest) =>
    have := strtokR_rest_lt h
    let exe := p ++ '/' :: file
    match stat exe with
    | none => searchPath stat file rest
    | some mode => if mode &&& 0o111 = 0 then searchPath stat file rest else .execve exe
termination_by last.length

/-- `execvp(file, argv)`: a name without `/` is searched for in `$PATH` (`pathEnv`, `none`
when unset), any other name goes to `execve`, and `NULL` is `ENOENT`. -/
def execvp (stat : Stat) (pathEnv : Option (List Char)) : Option (List Char) → Outcome
  | some file => if '/' ∉ file then searchPath stat file (pathEnv.getD defaultPath)
    else .execve file
  | none => .enoent

/-! ## 3. The search over the candidates -/

/-- The test of the loop: `stat` succeeds with some execute bit set. -/
def runnable (stat : Stat) (exe : List Char) : Bool :=
  match stat exe with
  | some mode => mode &&& 0o111 != 0
  | none => false

/-- The first candidate that `stat` finds runnable, or `ENOENT`. -/
def firstRunnable (stat : Stat) : List (List Char) → Outcome
  | [] => .enoent
  | exe :: exes => if runnable stat exe then .execve exe else firstRunnable stat exes

/-- The loop is the search over the candidates `p/file` for the POSIX tokens `p` of what
remains of the path. -/
theorem searchPath_eq (stat : Stat) (file last : List Char) :
    searchPath stat file last = firstRunnable stat ((tokens [':'] last).map (· ++ '/' :: file)) := by
  rw [searchPath]
  split
  · next h => rw [tokens_of_strtokR_none h]; rfl
  · next p rest h =>
    have := strtokR_rest_lt h
    have ih := searchPath_eq stat file rest
    dsimp only
    rw [tokens_of_strtokR_some h, List.map_cons, firstRunnable, runnable, ← ih]
    cases stat (p ++ '/' :: file) with
    | none => rfl
    | some mode => by_cases hm : mode &&& 0o111 = 0 <;> simp [hm]
termination_by last.length

theorem tokens_colon (str : List Char) : tokens [':'] str = (str.splitOn ':').filter (· ≠ []) := by
  simp only [tokens, List.splitOn, List.mem_singleton]
  congr

/-- For every name without `/`, every `PATH` and every file system, `execvp` calls `execve`
on the first runnable `p/file` over the non-empty components `p` of `PATH` (or of
`DEFAULT_PATH`), in order, and is `ENOENT` when there is none. -/
theorem execvp_searches_nonempty_components (stat : Stat) (pathEnv : Option (List Char))
    (file : List Char) (hfile : '/' ∉ file) :
    execvp stat pathEnv (some file) = firstRunnable stat
      ((((pathEnv.getD defaultPath).splitOn ':').filter (· ≠ [])).map (· ++ '/' :: file)) := by
  rw [execvp, if_pos hfile, searchPath_eq, tokens_colon]

theorem execvp_searches_nonempty_components_sh :
    '/' ∉ "sh".toList ∧ execvp (fun _ => none) none (some "sh".toList) =
      firstRunnable (fun _ => none)
        (((defaultPath.splitOn ':').filter (· ≠ [])).map (· ++ '/' :: "sh".toList)) :=
  have h : '/' ∉ "sh".toList := by decide
  ⟨h, execvp_searches_nonempty_components _ _ _ h⟩

/-! ## 4. Empty components -/

/-- The search as POSIX specifies it, in the words of the `PATH` rule: every `:`-separated
component `c` in order gives the candidate `c/file`, an empty component standing for the
current directory. -/
def execvpPosix (stat : Stat) (pathEnv : Option (List Char)) (file : List Char) : Outcome :=
  firstRunnable stat (((pathEnv.getD defaultPath).splitOn ':').map fun c =>
    (if c = [] then ['.'] else c) ++ '/' :: file)

/-- A file system with one program, `prog`, in the current directory. -/
def cwdProg : Stat := fun path =>
  if path = "./prog".toList ∨ path = "prog".toList then some 0o755 else none

/-- With `PATH=:/bin` and `prog` in the current directory, `execvp("prog", argv)` finds
nothing, where the POSIX search runs `./prog`. -/
theorem execvp_skips_empty_component :
    execvp cwdProg (some ":/bin".toList) (some "prog".toList) = .enoent ∧
      execvpPosix cwdProg (some ":/bin".toList) "prog".toList = .execve "./prog".toList := by
  refine ⟨?_, by decide⟩
  rw [execvp, if_pos (by decide), searchPath_eq]
  decide

/-- On a `PATH` without empty components the two searches are the same. -/
theorem execvp_eq_posix_of_no_empty_component (stat : Stat) (pathEnv : Option (List Char))
    (file : List Char) (hfile : '/' ∉ file) (hpath : [] ∉ (pathEnv.getD defaultPath).splitOn ':') :
    execvp stat pathEnv (some file) = execvpPosix stat pathEnv file := by
  rw [execvp, if_pos hfile, searchPath_eq, tokens_colon, execvpPosix,
    List.filter_eq_self.2 fun c hc => by simpa using ne_of_mem_of_not_mem hc hpath]
  congr 1
  exact List.map_congr_left fun c hc => by rw [if_neg (ne_of_mem_of_not_mem hc hpath)]

theorem execvp_eq_posix_default_path :
    ('/' ∉ "sh".toList ∧ [] ∉ ((none : Option (List Char)).getD defaultPath).splitOn ':') ∧
      execvp cwdProg none (some "sh".toList) = execvpPosix cwdProg none "sh".toList :=
  have h : '/' ∉ "sh".toList ∧ [] ∉ ((none : Option (List Char)).getD defaultPath).splitOn ':' := by
    decide
  ⟨h, execvp_eq_posix_of_no_empty_component cwdProg none _ h.1 h.2⟩

end Libc
end Toaru
