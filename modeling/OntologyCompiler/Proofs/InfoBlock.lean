import OntologyCompiler.Proofs.References

/-!
# What a document says about itself

Title and version come from the configuration, else from the ontology, else they are fixed ones. A
blank title counts as none. A blank version does not: it keeps out the version of the ontology, and
the fixed version stands in the document although the finding about it speaks of the ontology's.

* `titleFor_eq`, `versionFor_of_blank`, `versionFor_of_none`: where title and version come from.
* `assemble_retitled`: title and version enter the part that a document says about itself, and
  nothing else.
* `info_of_blanks`: what becomes of a blank title and a blank version, for every compilation.
-/

namespace OntologyCompiler

namespace Ontology

/-- The title that the name of an ontology gives to its document; none if there is no name or a
blank one. -/
def title? (o : Ontology) : Option String :=
  (Config.unlessBlank o.name).map fun name => Text.strip name ++ " API"

/-- The version of an ontology; none if it is blank. -/
def version? (o : Ontology) : Option String :=
  Config.unlessBlank o.version

end Ontology

namespace Config

/-- The same configuration, with a blank title left out. -/
def withoutBlankTitle (c : Config) : Config :=
  { c with title := unlessBlank c.title }

/-- The same configuration, with a blank version left out. -/
def withoutBlankVersion (c : Config) : Config :=
  { c with version := unlessBlank c.version }

/-! ## Blank values -/

theorem unlessBlank_unlessBlank (v : Option String) :
    unlessBlank (unlessBlank v) = unlessBlank v := by
  simp [unlessBlank, Option.filter_filter]

theorem unlessBlank_eq_none_of_any {v : Option String} (h : v.any Text.isBlankText = true) :
    unlessBlank v = none := by
  cases v with
  | none => rfl
  | some s => simpa [unlessBlank, Option.filter] using h

/-- A value that is not a blank one is kept. -/
theorem unlessBlank_of_any_eq_false {v : Option String} (h : v.any Text.isBlankText = false) :
    unlessBlank v = v := by
  cases v with
  | none => rfl
  | some s => simpa [unlessBlank, Option.filter] using h

theorem blankTitle_mem_findings {c : Config} :
    Finding.blankTitle ∈ c.findings ↔ c.title.any Text.isBlankText = true := by
  cases h : c.title.any Text.isBlankText <;> simp [findings, h]

theorem blankVersion_mem_findings {c : Config} :
    Finding.blankVersion ∈ c.findings ↔ c.version.any Text.isBlankText = true := by
  cases h : c.version.any Text.isBlankText <;> simp [findings, h]

/-! ## Where title and version come from -/

/-- The title of the configuration unless it is blank, else that of the ontology. -/
theorem titleFor_eq (c : Config) (o : Option Ontology) :
    c.titleFor o = (unlessBlank c.title).getD ((o.bind Ontology.title?).getD defaultTitle) := by
  have hname : unlessBlank (o.bind Ontology.name) = o.bind fun o => unlessBlank o.name := by
    cases o <;> rfl
  unfold titleFor
  rw [hname]
  cases unlessBlank c.title with
  | some title => rfl
  | none =>
    cases o with
    | none => rfl
    | some o => cases hn : unlessBlank o.name <;> simp [Ontology.title?, hn]

theorem titleFor_withoutBlankTitle (c : Config) (o : Option Ontology) :
    c.withoutBlankTitle.titleFor o = c.titleFor o := by
  rw [titleFor_eq, titleFor_eq, withoutBlankTitle, unlessBlank_unlessBlank]

/-- Without a version in the configuration the ontology's own counts. -/
theorem versionFor_of_none {c : Config} (h : c.version = none) (o : Option Ontology) :
    c.versionFor o = (o.bind Ontology.version?).getD defaultVersion := by
  unfold versionFor
  rw [h]
  cases o <;> rfl

/-- A blank version in the configuration stands in the way of the ontology's own. -/
theorem versionFor_of_blank {c : Config} (h : c.version.any Text.isBlankText = true)
    (o : Option Ontology) : c.versionFor o = defaultVersion := by
  have hsome : (c.version <|> o.bind Ontology.version) = c.version := by
    cases hv : c.version with
    | none => simp [hv] at h
    | some v => rfl
  unfold versionFor
  rw [hsome, unlessBlank_eq_none_of_any h]
  rfl

/-- Without the blank version it is the ontology's own that counts. -/
theorem versionFor_withoutBlankVersion {c : Config} (h : c.version.any Text.isBlankText = true)
    (o : Option Ontology) :
    c.withoutBlankVersion.versionFor o = (o.bind Ontology.version?).getD defaultVersion :=
  versionFor_of_none (unlessBlank_eq_none_of_any h) o

end Config

/-- The same result, with a document of another version. -/
def Compiled.withVersion (c : Compiled OpenApi) (version : String) : Compiled OpenApi :=
  { c with output := { c.output with info := { c.output.info with version := version } } }

theorem Compiled.withVersion_eq_self_iff (c : Compiled OpenApi) (version : String) :
    c.withVersion version = c ↔ version = c.output.info.version := by
  unfold withVersion
  constructor
  · intro h
    have hversion := congrArg (fun c : Compiled OpenApi => c.output.info.version) h
    exact hversion
  · rintro rfl
    rfl

/-! ## Whole compilations -/

/-- **Title and version** enter what a document says about itself, and nothing else: neither whether
there is a document, nor its other parts, nor what is found. -/
theorem assemble_retitled (config : Config) (title version : Option String) (scope : Scope) :
    assemble { config with title := title, version := version } scope =
      (assemble config scope).map fun c =>
        ⟨{ c.output with
            info := Config.infoFor { config with title := title, version := version }
              scope.ontology? }, c.findings⟩ := by
  unfold assemble
  rw [show Planner.new { config with title := title, version := version } = Planner.new config
    from rfl]
  cases (Planner.new config).planAll scope.actions with
  | error e => rfl
  | ok run =>
    obtain ⟨plans, planner⟩ := run
    cases hstate : ({} : DocumentState).addAll plans config.collisions with
    | error e => simp [bind, Except.bind, Except.map, hstate]
    | ok state => simp [bind, Except.bind, Except.map, hstate, pure, Except.pure]; rfl

theorem info_of_assemble {config : Config} {scope : Scope} {c : Compiled OpenApi}
    (h : assemble config scope = .ok c) : c.output.info = config.infoFor scope.ontology? := by
  obtain ⟨plans, planner, state, -, -, rfl⟩ := assemble_eq_ok_iff.mp h
  rfl

/-- A blank title might as well not be there. -/
theorem assemble_withoutBlankTitle (config : Config) (scope : Scope) :
    assemble config.withoutBlankTitle scope = assemble config scope := by
  have hinfo : config.withoutBlankTitle.infoFor scope.ontology? =
      config.infoFor scope.ontology? := by
    unfold Config.infoFor
    rw [Config.titleFor_withoutBlankTitle]
    rfl
  have hretitled := assemble_retitled config (Config.unlessBlank config.title) config.version scope
  change assemble config.withoutBlankTitle scope = _ at hretitled
  change config.withoutBlankTitle.infoFor scope.ontology? = _ at hinfo
  rw [hretitled]
  cases h : assemble config scope with
  | error e => rfl
  | ok c =>
    change Except.ok (Compiled.mk
      { c.output with info := config.withoutBlankTitle.infoFor scope.ontology? } c.findings) = _
    rw [hinfo, ← info_of_assemble h]

/-- Without a blank version the document is the same but for its version. -/
theorem assemble_withoutBlankVersion {config : Config} {scope : Scope} {c : Compiled OpenApi}
    (h : assemble config scope = .ok c) :
    assemble config.withoutBlankVersion scope =
      .ok (c.withVersion (config.withoutBlankVersion.versionFor scope.ontology?)) := by
  have hretitled := assemble_retitled config config.title (Config.unlessBlank config.version) scope
  change assemble config.withoutBlankVersion scope = _ at hretitled
  rw [hretitled, h]
  unfold Compiled.withVersion
  rw [info_of_assemble h]
  rfl

/-- **What becomes of blank titles and versions.** A blank title might as well not be there: the
document is the same, and its title is that of the ontology, or the fixed one where there is none. A
blank version is not like an absent one. Where it is found, the fixed version stands in the
document; without it there would be the version of the ontology. So leaving it out changes the
document just if the ontology has a version that is neither blank nor the fixed one, and then
nothing but the version. -/
theorem info_of_blanks (config : Config) (scope : Scope) :
    assemble config.withoutBlankTitle scope = assemble config scope ∧
    ∀ c, assemble config scope = .ok c →
      (Finding.blankTitle ∈ config.findings →
        c.output.info.title =
          (scope.ontology?.bind Ontology.title?).getD Config.defaultTitle) ∧
      (Finding.blankVersion ∈ config.findings →
        c.output.info.version = Config.defaultVersion) ∧
      ∃ version, assemble config.withoutBlankVersion scope = .ok (c.withVersion version) ∧
        (Finding.blankVersion ∈ config.findings →
          version = (scope.ontology?.bind Ontology.version?).getD Config.defaultVersion) ∧
        (c.withVersion version = c ↔ (Finding.blankVersion ∈ config.findings → ∀ own,
          scope.ontology?.bind Ontology.version? = some own → own = Config.defaultVersion)) := by
  refine ⟨assemble_withoutBlankTitle config scope, fun c hc => ?_⟩
  have hinfo := info_of_assemble hc
  have htitle : c.output.info.title = config.titleFor scope.ontology? := by rw [hinfo]; rfl
  have hversion : c.output.info.version = config.versionFor scope.ontology? := by rw [hinfo]; rfl
  rw [Config.blankTitle_mem_findings, Config.blankVersion_mem_findings]
  refine ⟨fun hblank => ?_, fun hblank => ?_, _, assemble_withoutBlankVersion hc,
    fun hblank => Config.versionFor_withoutBlankVersion hblank _, ?_⟩
  · rw [htitle, Config.titleFor_eq, Config.unlessBlank_eq_none_of_any hblank]
    rfl
  · rw [hversion, Config.versionFor_of_blank hblank]
  · rw [c.withVersion_eq_self_iff, hversion]
    by_cases hblank : config.version.any Text.isBlankText = true
    · rw [Config.versionFor_withoutBlankVersion hblank, Config.versionFor_of_blank hblank]
      cases scope.ontology?.bind Ontology.version? <;> simp [hblank]
    · have hkept : config.withoutBlankVersion = config := by
        unfold Config.withoutBlankVersion
        rw [Config.unlessBlank_of_any_eq_false (by simpa using hblank)]
      rw [hkept]
      simp [hblank]

/-- An ontology with a name and a version. -/
def Ontology.retail : Ontology :=
  { name := some "Retail", version := some "2.1.0" }

/-- A blank title gives way to the ontology, and a blank version does not, although both findings
say so: without it, the version would be that of the ontology. -/
theorem info_of_blanks_retail :
    ∃ c, assemble { title := some " ", version := some " " } (.whole .retail) = .ok c ∧
      Config.findings { title := some " ", version := some " " } = [.blankTitle, .blankVersion] ∧
      c.output.info.title = "Retail API" ∧ c.output.info.version = "1.0.0" ∧
      assemble { title := some " " } (.whole .retail) = .ok (c.withVersion "2.1.0") ∧
      c.withVersion "2.1.0" ≠ c := by
  have hc : ∃ c, assemble { title := some " ", version := some " " } (.whole .retail) = .ok c :=
    ⟨_, rfl⟩
  obtain ⟨c, hc⟩ := hc
  have hfindings : Config.findings { title := some " ", version := some " " } =
      [.blankTitle, .blankVersion] := by decide +kernel
  obtain ⟨htitle, hversion, version, hwithout, hown, hchanged⟩ := (info_of_blanks _ _).2 c hc
  rw [hfindings] at htitle hversion hown hchanged
  obtain rfl : version = "2.1.0" := (hown (by simp)).trans (by decide +kernel)
  refine ⟨c, hc, hfindings, (htitle (by simp)).trans (by decide +kernel), hversion (by simp),
    hwithout, fun hsame => ?_⟩
  have hfixed := hchanged.mp hsame (by simp) "2.1.0" (by decide +kernel)
  exact absurd hfixed (by decide)

end OntologyCompiler
