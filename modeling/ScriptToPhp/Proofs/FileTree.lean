import ScriptToPhp.Command.Files

/-!
# Files that stay

Directories are made where nothing is, and a text is written to a file or where nothing is. So a
path that leads to a file goes on to lead to the same one, whatever else is made and written.
-/

namespace ScriptToPhp.Command

def Place.target? : Place → Option Route
  | .file r _ | .vacant r false => some r
  | _ => none

namespace Files

/-- Nothing of the first files is gone in the second, and no file has become a directory. -/
structure Keeps (f f' : Files) : Prop where
  home : f'.home = f.home
  directories : ∀ r, f.directories.contains r = true → f'.directories.contains r = true
  files : ∀ r, (f.contents.lookup r).isSome = true → (f'.contents.lookup r).isSome = true
  kinds : ∀ r, f.directories.contains r = false → (f.contents.lookup r).isSome = true →
    f'.directories.contains r = false

def route? (f : Files) (path : String) : Option Route :=
  match f.resolve path with
  | .ok (.file route _) => some route
  | _ => none

section

variable {f f' f'' : Files} {path text : String} {here r : Route} {segments : List (List Char)}
  {content : Option String}

theorem Keeps.refl (f : Files) : f.Keeps f := ⟨rfl, fun _ h => h, fun _ h => h, fun _ h _ => h⟩

theorem Keeps.trans (h : f.Keeps f') (h' : f'.Keeps f'') : f.Keeps f'' where
  home := h'.home.trans h.home
  directories r hr := h'.directories r (h.directories r hr)
  files r hr := h'.files r (h.files r hr)
  kinds r hdirectory hfile := h'.kinds r (h.kinds r hdirectory hfile) (h.files r hfile)

-- ---------------------------------------------------------------------------
-- Following paths
-- ---------------------------------------------------------------------------

/-- What is said of a place is what the files have there. -/
def Has (f : Files) : Place → Prop
  | .directory _ => True
  | .file r content => f.directories.contains r = false ∧ f.contents.lookup r = some content
  | .vacant r _ => f.directories.contains r = false ∧ f.contents.lookup r = none

theorem has_of_resolveFrom (h : f.resolveFrom here segments = .ok place) : f.Has place := by
  fun_induction resolveFrom f here segments with
  | case1 =>
    cases h
    trivial
  | case2 _ _ _ _ ih | case3 _ _ _ _ _ ih | case4 _ _ _ _ _ _ _ ih => exact ih h
  | case5 _ _ _ _ _ _ hdirectory content hlookup =>
    cases h
    exact ⟨Bool.eq_false_iff.2 hdirectory, hlookup⟩
  | case7 _ _ _ _ _ _ hdirectory hlookup =>
    cases h
    exact ⟨Bool.eq_false_iff.2 hdirectory, hlookup⟩
  | case6 | case8 => cases h

/-- A path to a file, or to where one can be made, leads there as long as that is the only change on
its way. -/
theorem resolveFrom_of_keeps (hkeeps : f.Keeps f') (h : f.resolveFrom here segments = .ok place)
    (hplace : place.target? = some r) (hdirectory : f'.directories.contains r = false)
    (hcontent : f'.contents.lookup r = some content) :
    f'.resolveFrom here segments = .ok (.file r content) := by
  fun_induction resolveFrom f here segments with
  | case1 =>
    cases h
    cases hplace
  | case2 _ _ _ hvoid ih =>
    rw [resolveFrom, if_pos hvoid]
    exact ih h
  | case3 _ _ _ hvoid hup ih =>
    rw [resolveFrom, if_neg hvoid, if_pos hup]
    exact ih h
  | case4 _ _ _ hvoid hup _ hthere ih =>
    rw [resolveFrom, if_neg hvoid, if_neg hup]
    exact (if_pos (hkeeps.directories _ hthere)).trans (ih h)
  | case5 here name rest hvoid hup _ _ _ _ hrest =>
    cases h
    have hr : here ++ [name] = r := Option.some.inj hplace
    subst hr
    rw [resolveFrom, if_neg hvoid, if_neg hup]
    simp only [hdirectory, Bool.false_eq_true, if_false, hcontent, hrest, if_true]
  | case7 here name rest hvoid hup _ _ _ _ =>
    cases h
    cases rest with
    | cons _ _ => cases hplace
    | nil =>
      have hr : here ++ [name] = r := Option.some.inj hplace
      subst hr
      rw [resolveFrom, if_neg hvoid, if_neg hup]
      simp only [hdirectory, Bool.false_eq_true, if_false, hcontent, List.isEmpty_nil, if_true]
  | case6 | case8 => cases h

theorem has_of_resolve (h : f.resolve path = .ok place) : f.Has place := by
  unfold resolve at h
  split at h
  · cases h
  · split at h
    · cases h
    · exact has_of_resolveFrom h

theorem resolve_of_keeps (hkeeps : f.Keeps f') (h : f.resolve path = .ok place)
    (hplace : place.target? = some r) (hdirectory : f'.directories.contains r = false)
    (hcontent : f'.contents.lookup r = some content) :
    f'.resolve path = .ok (.file r content) := by
  unfold resolve at h ⊢
  split at h
  · cases h
  next hname =>
    split at h
    · cases h
    next hempty =>
      rw [if_neg hname, if_neg hempty, hkeeps.home]
      exact resolveFrom_of_keeps hkeeps h hplace hdirectory hcontent

theorem route?_eq_some_iff : f.route? path = some r ↔
    ∃ content, f.resolve path = .ok (.file r content) := by
  unfold route?
  split
  next route content h => simp [h]
  next h =>
    simp only [reduceCtorEq, false_iff, not_exists]
    exact fun content => h r content

theorem route?_of_keeps (hkeeps : f.Keeps f') (h : f.route? path = some r) :
    f'.route? path = some r := by
  obtain ⟨content, hresolve⟩ := route?_eq_some_iff.1 h
  obtain ⟨hdirectory, hlookup⟩ := has_of_resolve hresolve
  have hsome : (f.contents.lookup r).isSome = true := by simp [hlookup]
  obtain ⟨later, hlater⟩ := Option.isSome_iff_exists.1 (hkeeps.files r hsome)
  exact route?_eq_some_iff.2 ⟨later,
    resolve_of_keeps hkeeps hresolve rfl (hkeeps.kinds r hdirectory hsome) hlater⟩

theorem read_eq_ok_iff :
    f.read path = .ok text ↔ ∃ r, f.route? path = some r ∧
    f.contents.lookup r = some (some text) := by
  constructor
  · intro h
    unfold read at h
    cases hresolve : f.resolve path with
    | error fault => simp [hresolve, bind, Except.bind] at h
    | ok place =>
      simp only [hresolve, bind, Except.bind] at h
      split at h
      next r found =>
        cases h
        exact ⟨r, route?_eq_some_iff.2 ⟨_, hresolve⟩, (has_of_resolve hresolve).2⟩
      all_goals cases h
  · rintro ⟨r, hroute, hlookup⟩
    obtain ⟨content, hresolve⟩ := route?_eq_some_iff.1 hroute
    cases (has_of_resolve hresolve).2.symm.trans hlookup
    simp [read, hresolve, bind, Except.bind, pure, Except.pure]

-- ---------------------------------------------------------------------------
-- Making directories and writing
-- ---------------------------------------------------------------------------

theorem makeDirectory_ok (h : f.makeDirectory path = .ok f') :
    f.Keeps f' ∧ f'.contents = f.contents := by
  unfold makeDirectory at h
  cases hresolve : f.resolve path with
  | error fault => simp [hresolve, bind, Except.bind] at h
  | ok place =>
    simp only [hresolve, bind, Except.bind] at h
    split at h
    next route slash =>
      cases h
      obtain ⟨-, hvacant⟩ := has_of_resolve hresolve
      refine ⟨⟨rfl, fun r hr => by simp_all, fun r hr => hr, fun r hr hsome => ?_⟩, rfl⟩
      have hne : r ≠ route := by
        rintro rfl
        simp [hvacant] at hsome
      simpa [hne] using hr
    all_goals cases h

section

variable {contents : List (Route × Option String)}

theorem lookup_overwrite_self (text : String) (h : (contents.lookup r).isSome = true) :
    (contents.map fun entry => if entry.1 == r then (r, some text) else entry).lookup r =
      some (some text) := by
  induction contents with
  | nil => simp at h
  | cons entry contents ih =>
    obtain ⟨key, content⟩ := entry
    by_cases heq : key = r
    · simp [heq]
    · have hne : (r == key) = false := by simpa using Ne.symm heq
      simp only [List.lookup_cons, hne] at h
      simpa [heq, List.lookup_cons, hne] using ih h

theorem lookup_overwrite_of_ne (text : String) {other : Route} (h : other ≠ r) :
    (contents.map fun entry => if entry.1 == r then (r, some text) else entry).lookup other =
      contents.lookup other := by
  induction contents with
  | nil => rfl
  | cons entry contents ih =>
    obtain ⟨key, content⟩ := entry
    rw [List.map_cons, List.lookup_cons, ih, List.lookup_cons]
    by_cases heq : key = r
    · have hne : (other == r) = false := by simpa using h
      simp [heq, hne]
    · simp [heq]

theorem writes_of_resolve (hresolve : f.resolve path = .ok place) (hplace : place.target? = some r)
    (hdirectory : f.directories.contains r = false) (hself : contents.lookup r = some (some text))
    (hothers : ∀ other, other ≠ r → contents.lookup other = f.contents.lookup other) :
    f.Keeps { f with contents } ∧ { f with contents }.route? path = some r := by
  have hkeeps : f.Keeps { f with contents } := by
    refine ⟨rfl, fun _ h => h, fun other hsome => ?_, fun _ h _ => h⟩
    by_cases heq : other = r
    · simp [heq, hself]
    · simpa only [hothers other heq] using hsome
  exact ⟨hkeeps, route?_eq_some_iff.2 ⟨_, resolve_of_keeps hkeeps hresolve hplace hdirectory hself⟩⟩

end

/-- After a write the path leads to a file with the text, and no other file has changed. -/
theorem write_ok (h : f.write path text = .ok f') : f.Keeps f' ∧ ∃ r, f'.route? path = some r ∧
    f'.contents.lookup r = some (some text) ∧
    ∀ other, other ≠ r → f'.contents.lookup other = f.contents.lookup other := by
  unfold write at h
  cases hresolve : f.resolve path with
  | error fault => simp [hresolve, bind, Except.bind] at h
  | ok place =>
    simp only [hresolve, bind, Except.bind] at h
    split at h
    next r content =>
      cases h
      obtain ⟨hdirectory, hlookup⟩ := has_of_resolve hresolve
      have hself := lookup_overwrite_self text
        (by simp [hlookup] : (f.contents.lookup r).isSome = true)
      obtain ⟨hkeeps, hroute⟩ :=
        writes_of_resolve hresolve rfl hdirectory hself fun other hne =>
          lookup_overwrite_of_ne text hne
      exact ⟨hkeeps, r, hroute, hself, fun other hne => lookup_overwrite_of_ne text hne⟩
    next r =>
      cases h
      obtain ⟨hdirectory, hlookup⟩ := has_of_resolve hresolve
      have hself : (f.contents ++ [(r, some text)]).lookup r = some (some text) := by
        simp [List.lookup_append, hlookup]
      have hothers : ∀ other, other ≠ r →
          (f.contents ++ [(r, some text)]).lookup other = f.contents.lookup other := by
        intro other hne
        have hkey : (other == r) = false := by simpa using hne
        simp [List.lookup_append, List.lookup_cons, hkey]
      obtain ⟨hkeeps, hroute⟩ := writes_of_resolve hresolve rfl hdirectory hself hothers
      exact ⟨hkeeps, r, hroute, hself, hothers⟩
    all_goals cases h

end

end Files

end ScriptToPhp.Command
