import Countersign.Proofs.Json.Values
import Countersign.Proofs.Settings.Variables
import Mathlib.Data.List.Nodup

/-!
# Variables over a file

Each variable writes under the name of its setting, in the table of the part. A part
that the file has as a list becomes a table then, and what stood in it by place is
lost. Everything else stays, so a setting is what the variable says, else what the
file says, else its default.
-/

set_option autoImplicit false

namespace Countersign.Settings

/-! ## One variable -/

def IsTable : Setting → Prop
  | .table _ => True
  | _ => False

theorem table_is_part (x : Setting) (hx : IsTable x) : IsPart x := by
  cases x with
  | table es => trivial
  | _ => cases hx

def Field.written (x : Setting) (f : Field) : Option Setting :=
  (f.part.tree x).entries.lookup f.name

theorem given_in_table (x : Setting) (f : Field) (hx : IsTable (f.part.tree x)) :
    f.given? x = f.written x := by
  rw [Field.given?, Field.written]
  cases h : f.part.tree x with
  | table es => rfl
  | _ => simp [h, IsTable] at hx

theorem flat_of_text (x below : Setting) (s : String) (h : x.toText? = some s) :
    below.overlay x = x := by
  cases x with
  | table es => cases h
  | _ => rfl

def Field.laid (f : Field) (t : String) (x : Setting) : Setting :=
  x.setAt (Setting.path f.key) (Environment.value t)

theorem laid_eq (f : Field) (t : String) (x : Setting) :
    f.laid t x = .table (Json.put x.entries f.part.title
      (.table (Json.put (f.part.tree x).entries f.name (Environment.value t)))) := by
  have hentries : ((x.get? f.part.title).getD .absent).entries = (f.part.tree x).entries := by
    rw [Part.tree]
    cases x.get? f.part.title <;> rfl
  simp only [Field.laid, path_of_key, Setting.setAt, hentries,
    flat_of_text _ _ _ (Environment.value_as_text t)]

theorem tree_laid (f : Field) (t : String) (x : Setting) (p : Part) :
    p.tree (f.laid t x) =
      if p = f.part then .table (Json.put (f.part.tree x).entries f.name (Environment.value t))
      else p.tree x := by
  rw [laid_eq, Part.tree, Setting.get?, Setting.entries]
  split
  · next hp => rw [hp, Json.lookup_put_self, Option.getD_some]
  · next hp =>
    rw [Json.lookup_put_other _ _ _ _ fun h => hp (Part.title_injective p f.part h)]
    rfl

theorem written_laid (f g : Field) (t : String) (x : Setting) :
    g.written (f.laid t x) = if g = f then some (Environment.value t) else g.written x := by
  rw [Field.written, tree_laid]
  by_cases hpart : g.part = f.part
  · rw [if_pos hpart, Setting.entries]
    by_cases hfield : g = f
    · rw [if_pos hfield, hfield, Json.lookup_put_self]
    · rw [if_neg hfield, Json.lookup_put_other _ _ _ _ fun h => hfield (Field.name_injective g f h),
        Field.written, hpart]
  · rw [if_neg hpart, if_neg fun h => hpart (congrArg Field.part h), Field.written]

/-! ## All variables -/

def laidAll (x : Setting) (as : List Assignment) : Setting :=
  as.foldl (fun x a => a.field.laid a.text x) x

theorem laid_all_cons (x : Setting) (a : Assignment) (as : List Assignment) :
    laidAll x (a :: as) = laidAll (a.field.laid a.text x) as := rfl

theorem layer_entries (x : Setting) (as : List Assignment) :
    x.layer (as.map Assignment.entry) = laidAll x as := by
  rw [Setting.layer, List.foldl_map]
  rfl

theorem written_unnamed (f : Field) (as : List Assignment) (x : Setting)
    (h : ∀ a ∈ as, a.field ≠ f) : f.written (laidAll x as) = f.written x := by
  induction as generalizing x with
  | nil => rfl
  | cons a as ih =>
    have hhead : f ≠ a.field := fun heq => h a List.mem_cons_self heq.symm
    rw [laid_all_cons, ih _ fun b hb => h b (List.mem_cons_of_mem _ hb), written_laid, if_neg hhead]

theorem written_named (a : Assignment) (as : List Assignment) (x : Setting) (ha : a ∈ as)
    (hnodup : (as.map (·.field)).Nodup) :
    a.field.written (laidAll x as) = some (Environment.value a.text) := by
  induction as generalizing x with
  | nil => cases ha
  | cons b as ih =>
    rw [List.map_cons, List.nodup_cons] at hnodup
    rw [laid_all_cons]
    rcases List.mem_cons.mp ha with rfl | ha
    · -- no later variable names the setting again
      have hrest : ∀ b ∈ as, b.field ≠ a.field := fun b hb heq =>
        hnodup.1 (List.mem_map.mpr ⟨b, hb, heq⟩)
      rw [written_unnamed a.field as _ hrest, written_laid, if_pos rfl]
    · exact ih _ ha hnodup.2

theorem part_untouched (p : Part) (as : List Assignment) (x : Setting)
    (h : ∀ a ∈ as, a.field.part ≠ p) : p.tree (laidAll x as) = p.tree x := by
  induction as generalizing x with
  | nil => rfl
  | cons a as ih =>
    have hhead : p ≠ a.field.part := fun heq => h a List.mem_cons_self heq.symm
    rw [laid_all_cons, ih _ fun b hb => h b (List.mem_cons_of_mem _ hb), tree_laid, if_neg hhead]

theorem table_touched (p : Part) (as : List Assignment) (x : Setting)
    (h : IsTable (p.tree x) ∨ ∃ a ∈ as, a.field.part = p) : IsTable (p.tree (laidAll x as)) := by
  induction as generalizing x with
  | nil => exact h.resolve_right (by simp)
  | cons a as ih =>
    rw [laid_all_cons]
    apply ih
    rw [tree_laid]
    by_cases hp : p = a.field.part
    · rw [if_pos hp]
      exact Or.inl trivial
    · rw [if_neg hp]
      refine h.imp id ?_
      rintro ⟨b, hb, rfl⟩
      exact ⟨b, (List.mem_cons.mp hb).resolve_left (by rintro rfl; exact hp rfl), rfl⟩

/-! ## Variables of the environment -/

theorem settings_prefixed (stem : String) (vars : List (String × String)) :
    Environment.settings stem (vars.filter fun v => (Environment.key? stem v.1).isSome) =
      Environment.settings stem vars := by
  rw [Environment.settings, List.foldl_filter, Environment.settings]
  congr 1
  funext es v
  cases Environment.key? stem v.1 <;> rfl

theorem key_injective : Function.Injective Field.key := by
  intro f g h
  have hpath := path_of_key f
  rw [h, path_of_key] at hpath
  simp only [List.cons.injEq, Setting.Step.name.injEq, and_true] at hpath
  exact Field.name_injective f g hpath.2.symm

theorem settings_assigned (stem : String) (as : List Assignment)
    (hnodup : (as.map (·.field)).Nodup) :
    Environment.settings stem (as.map (Assignment.asVariable stem)) = as.map Assignment.entry := by
  have hkeys : ((as.map Assignment.entry).map (·.1)).Nodup := by
    rw [List.map_map]
    have hmap : (as.map (·.field)).map Field.key = as.map ((·.1) ∘ Assignment.entry) := by
      rw [List.map_map]
      rfl
    rw [← hmap]
    exact hnodup.map key_injective
  have hfold : Environment.settings stem (as.map (Assignment.asVariable stem)) =
      (as.map Assignment.entry).foldl (fun es e => Json.put es e.1 e.2) [] := by
    rw [Environment.settings, List.foldl_map, List.foldl_map]
    simp only [Assignment.asVariable, key_of_variable, Assignment.entry]
  rw [hfold, Json.put_all_distinct [] _ (by simpa using hkeys), List.nil_append]

/-! ## Loading -/

def fileTree? (files : Files) (path : String) : Option Setting := do
  let format ← SettingsFormat.ofPath? path
  let contents ← (files.read path).toOption
  let entries ← format.entries? contents
  return (Setting.table []).layer entries

theorem exists_of_read (files : Files) (path : String) (contents : Bytes)
    (h : files.read path = .ok contents) : files.pathExists path = true := by
  rw [Files.read] at h
  rw [Files.pathExists]
  cases hfind : files.find path with
  | ok found => rfl
  | error e => rw [hfind] at h; cases h

theorem load_iff (files : Files) (path stem : String) (vars : List (String × String))
    (s : Settings) :
    load files path stem vars = .ok s ↔ ∃ file, fileTree? files path = some file ∧
      ofSetting? (file.layer (Environment.settings stem vars)) = some s := by
  rw [load, fileTree?]
  cases hformat : SettingsFormat.ofPath? path with
  | none => exact iff_of_false (by cases files.pathExists path <;> exact nofun) (by simp)
  | some format =>
  cases hread : files.read path with
  | error e =>
    exact iff_of_false (by cases files.pathExists path <;> exact nofun) (by simp [Except.toOption])
  | ok contents =>
  -- what can be read exists, so only the contents may still be refused
  rw [exists_of_read files path contents hread]
  cases hentries : format.entries? contents with
  | none => simp [Except.toOption, hentries]
  | some entries =>
  simp only [Bool.not_true, Bool.false_eq_true, if_false, Except.toOption, hentries, tree,
    Option.pure_def, Option.bind_eq_bind, Option.bind_some, Option.some.injEq, exists_eq_left']
  cases ofSetting? (((Setting.table []).layer entries).layer (Environment.settings stem vars)) with
  | none => exact iff_of_false nofun nofun
  | some r =>
    rw [Option.some.injEq]
    exact Except.ok.injEq r s ▸ Iff.rfl

theorem path_starts (key : String) : ∃ name r, Setting.path key = .name name :: r := by
  rw [Setting.path]
  split
  · exact ⟨key, [], rfl⟩
  · split
    · exact ⟨_, _, rfl⟩
    · exact ⟨key, [], rfl⟩

theorem layer_table (es entries : List (String × Setting)) :
    ∃ es', (Setting.table es).layer entries = .table es' := by
  induction entries generalizing es with
  | nil => exact ⟨es, rfl⟩
  | cons e entries ih =>
    obtain ⟨name, r, hpath⟩ := path_starts e.1
    rw [Setting.layer, List.foldl_cons, ← Setting.layer, hpath, Setting.setAt]
    exact ih _

theorem file_tree_table (files : Files) (path : String) (file : Setting)
    (h : fileTree? files path = some file) : ∃ es, file = .table es := by
  simp only [fileTree?, Option.bind_eq_bind, Option.bind_eq_some_iff, Option.pure_def,
    Option.some.injEq] at h
  obtain ⟨_, _, _, _, entries, _, rfl⟩ := h
  exact layer_table [] entries

/-- A setting that stands by its place in a part of the file, while a variable names another setting
of that part. -/
def Displaced (file : Setting) (as : List Assignment) (f : Field) : Prop :=
  ¬ IsTable (f.part.tree file) ∧ ∃ a ∈ as, a.field.part = f.part

/-- The settings are those of the file, but for the ones that variables name, which have the values
that these hold. -/
structure Overridden (as : List Assignment) (s r : Settings) : Prop where
  named : ∀ a ∈ as, a.field.get r = a.value
  others : ∀ f : Field, (∀ a ∈ as, a.field ≠ f) → f.get r = f.get s

theorem given_named (file : Setting) (as : List Assignment) (a : Assignment) (ha : a ∈ as)
    (hnodup : (as.map (·.field)).Nodup) :
    a.field.given? (laidAll file as) = some (Environment.value a.text) := by
  rw [given_in_table _ _ (table_touched _ as file (Or.inr ⟨a, ha, rfl⟩)),
    written_named a as file ha hnodup]

theorem given_displaced (file : Setting) (as : List Assignment) (f : Field)
    (hnamed : ∀ a ∈ as, a.field ≠ f) (h : Displaced file as f) :
    f.given? (laidAll file as) = none := by
  rw [given_in_table _ _ (table_touched _ as file (Or.inr h.2)), written_unnamed f as file hnamed,
    Field.written]
  cases htree : f.part.tree file with
  | table es => exact absurd (by rw [htree]; trivial) h.1
  | _ => rfl

theorem given_kept (file : Setting) (as : List Assignment) (f : Field)
    (hnamed : ∀ a ∈ as, a.field ≠ f) (h : ¬ Displaced file as f) :
    f.given? (laidAll file as) = f.given? file := by
  by_cases htouched : ∃ a ∈ as, a.field.part = f.part
  · have htable : IsTable (f.part.tree file) := by
      by_contra hlist
      exact h ⟨hlist, htouched⟩
    rw [given_in_table _ _ (table_touched _ as file (Or.inr htouched)),
      written_unnamed f as file hnamed, given_in_table file f htable]
  · have huntouched : ∀ a ∈ as, a.field.part ≠ f.part := fun a ha heq => htouched ⟨a, ha, heq⟩
    rw [Field.given?, part_untouched f.part as file huntouched, ← Field.given?]

theorem parts_laid (file : Setting) (as : List Assignment) (p : Part)
    (h : IsPart (p.tree file)) : IsPart (p.tree (laidAll file as)) := by
  by_cases htouched : ∃ a ∈ as, a.field.part = p
  · exact table_is_part _ (table_touched p as file (Or.inr htouched))
  · rw [part_untouched p as file fun a ha heq => htouched ⟨a, ha, heq⟩]
    exact h

theorem settings_laid (file : Setting) (as : List Assignment) (s : Settings)
    (htable : ∃ es, file = .table es) (hs : ofSetting? file = some s)
    (hnodup : (as.map (·.field)).Nodup) :
    ∃ r, ofSetting? (laidAll file as) = some r ∧
      (∀ a ∈ as, a.field.get r = a.field.kind.taken a.value) ∧
      (∀ f : Field, (∀ a ∈ as, a.field ≠ f) → ¬ Displaced file as f → f.get r = f.get s) ∧
      (∀ f : Field, (∀ a ∈ as, a.field ≠ f) → Displaced file as f → f.get r = f.get {}) := by
  obtain ⟨es, rfl⟩ := htable
  obtain ⟨hparts, hfields⟩ := (of_setting_iff es s).mp hs
  obtain ⟨es', hlaid⟩ := layer_table es (as.map Assignment.entry)
  rw [layer_entries] at hlaid
  have hnamed : ∀ a ∈ as, a.field.reads (a.field.given? (laidAll (.table es) as)) =
      some (a.field.kind.taken a.value) := by
    intro a ha
    rw [given_named (.table es) as a ha hnodup]
    exact value_read a.field.kind a.text a.value a.holds
  have hkept : ∀ f : Field, (∀ a ∈ as, a.field ≠ f) → ¬ Displaced (.table es) as f →
      f.reads (f.given? (laidAll (.table es) as)) = some (f.get s) := by
    intro f hf h
    rw [given_kept (.table es) as f hf h, hfields]
  have hdisplaced : ∀ f : Field, (∀ a ∈ as, a.field ≠ f) → Displaced (.table es) as f →
      f.reads (f.given? (laidAll (.table es) as)) = some (f.get {}) := by
    intro f hf h
    rw [given_displaced (.table es) as f hf h]
    rfl
  -- every setting is read, so there are settings with these values
  have hread : ∀ f : Field, ∃ v, f.reads (f.given? (laidAll (.table es) as)) = some v := by
    intro f
    by_cases hf : ∃ a ∈ as, a.field = f
    · obtain ⟨a, ha, rfl⟩ := hf
      exact ⟨_, hnamed a ha⟩
    · have hf : ∀ a ∈ as, a.field ≠ f := fun a ha heq => hf ⟨a, ha, heq⟩
      by_cases h : Displaced (.table es) as f
      · exact ⟨_, hdisplaced f hf h⟩
      · exact ⟨_, hkept f hf h⟩
  choose v hv using hread
  have hvalue : ∀ (f : Field) (w : f.kind.Carrier),
      f.reads (f.given? (laidAll (.table es) as)) = some w → f.get (ofValues v) = w := by
    intro f w hw
    rw [get_of_values, ← Option.some.injEq, ← hv, hw]
  refine ⟨ofValues v, ?_, fun a ha => hvalue _ _ (hnamed a ha),
    fun f hf h => hvalue f _ (hkept f hf h), fun f hf h => hvalue f _ (hdisplaced f hf h)⟩
  rw [hlaid] at hv ⊢
  exact of_setting_values es' v (fun p => hlaid ▸ parts_laid (.table es) as p (hparts p)) hv

/-- A file that loads by itself loads under variables that hold values of the settings they name.
Each named setting is what its variable makes of the value, and the others are those of the file,
where a setting that the file does not give is the default; only what stands by its place in a part
of which a variable names another setting is lost. So variables change what they name, to the value
they hold, and nothing else, exactly when no value is changed on the way and nothing but defaults
is lost. -/
theorem load_over_file (files : Files) (path stem : String) (vars : List (String × String))
    (as : List Assignment) (s : Settings) (hload : load files path stem [] = .ok s)
    (hvars : vars.filter (fun v => (Environment.key? stem v.1).isSome) =
      as.map (Assignment.asVariable stem))
    (hnodup : (as.map (·.field)).Nodup) :
    ∃ file r, fileTree? files path = some file ∧
      (∀ f : Field, f.reads (f.given? file) = some (f.get s)) ∧
      load files path stem vars = .ok r ∧
      (∀ a ∈ as, a.field.get r = a.field.kind.taken a.value) ∧
      (∀ f : Field, (∀ a ∈ as, a.field ≠ f) → ¬ Displaced file as f → f.get r = f.get s) ∧
      (∀ f : Field, (∀ a ∈ as, a.field ≠ f) → Displaced file as f → f.get r = f.get {}) ∧
      (Overridden as s r ↔ (∀ a ∈ as, a.field.kind.taken a.value = a.value) ∧
        ∀ f : Field, (∀ a ∈ as, a.field ≠ f) → Displaced file as f → f.get s = f.get {}) := by
  obtain ⟨file, hfile, hs⟩ := (load_iff files path stem [] s).mp hload
  obtain ⟨es, htable⟩ := file_tree_table files path file hfile
  obtain ⟨r, hr, hnamed, hkept, hdisplaced⟩ := settings_laid file as s ⟨es, htable⟩ hs hnodup
  have hsettings : Environment.settings stem vars = as.map Assignment.entry := by
    rw [← settings_prefixed, hvars, settings_assigned stem as hnodup]
  have hfields : ∀ f : Field, f.reads (f.given? file) = some (f.get s) := by
    rw [htable] at hs ⊢
    exact ((of_setting_iff es s).mp hs).2
  refine ⟨file, r, hfile, hfields, ?_, hnamed, hkept, hdisplaced, ?_, ?_⟩
  · rw [load_iff]
    exact ⟨file, hfile, by rw [hsettings, layer_entries, hr]⟩
  · intro h
    refine ⟨fun a ha => (hnamed a ha).symm.trans (h.named a ha), fun f hf hd => ?_⟩
    rw [← h.others f hf, hdisplaced f hf hd]
  · rintro ⟨htaken, hlost⟩
    refine ⟨fun a ha => (hnamed a ha).trans (htaken a ha), fun f hf => ?_⟩
    by_cases hd : Displaced file as f
    · rw [hdisplaced f hf hd, hlost f hf hd]
    · exact hkept f hf hd

def tomlFile (contents : String) : Files :=
  ({} : Files).insert "/keystamp.toml" (Utf8.ofString contents)

theorem load_of_option (files : Files) (path stem : String) (vars : List (String × String))
    (s : Settings) (h : (load files path stem vars).toOption = some s) :
    load files path stem vars = .ok s := by
  cases hload : load files path stem vars with
  | ok r => rw [hload] at h; exact congrArg Except.ok (Option.some.inj h)
  | error e => rw [hload] at h; cases h

theorem flag_and_audience_loaded :
    ∃ r, load (tomlFile "[signature]\nproduction = true\n") "/keystamp.toml" "KEYSTAMP"
        [("PATH", "/bin"), ("KEYSTAMP_SIGNATURE__PRODUCTION", "false"),
         ("KEYSTAMP_TOKEN__AUDIENCE", "api.example.com")] = .ok r ∧
      r.signature.production = false ∧ r.token.audience = "api.example.com" := by
  obtain ⟨_, r, _, _, hr, hnamed, _⟩ := load_over_file
    (tomlFile "[signature]\nproduction = true\n") "/keystamp.toml" "KEYSTAMP"
    [("PATH", "/bin"), ("KEYSTAMP_SIGNATURE__PRODUCTION", "false"),
     ("KEYSTAMP_TOKEN__AUDIENCE", "api.example.com")]
    [⟨.production, "false", false, .flag _ _ (by decide)⟩,
     ⟨.audience, "api.example.com", "api.example.com", .text _⟩]
    {} (load_of_option _ _ _ _ _ (by decide +kernel)) (by decide +kernel) (by decide)
  have hkept : Environment.respelt "api.example.com" = "api.example.com" := by decide +kernel
  exact ⟨r, hr, hnamed _ List.mem_cons_self,
    (hnamed _ (List.mem_cons_of_mem _ List.mem_cons_self)).trans hkept⟩

/-- An audience of digits loses its zeros in a variable, but not in a file. -/
theorem audience_respelt :
    load (tomlFile "") "/keystamp.toml" "KEYSTAMP" [] = .ok {} ∧
      load (tomlFile "") "/keystamp.toml" "KEYSTAMP" [("KEYSTAMP_TOKEN__AUDIENCE", "007")] =
        .ok { token := { audience := "7" } } ∧
      ¬ Overridden [⟨.audience, "007", "007", .text _⟩] {} { token := { audience := "7" } } ∧
      load (tomlFile "[token]\naudience = \"007\"\n") "/keystamp.toml" "KEYSTAMP" [] =
        .ok { token := { audience := "007" } } := by
  refine ⟨load_of_option _ _ _ _ _ (by decide +kernel),
    load_of_option _ _ _ _ _ (by decide +kernel), ?_,
    load_of_option _ _ _ _ _ (by decide +kernel)⟩
  intro h
  have haudience : "7" = "007" := h.named _ List.mem_cons_self
  exact absurd haudience (by decide)

end Countersign.Settings
