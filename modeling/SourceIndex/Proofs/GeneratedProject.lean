import SourceIndex.Benchmark.Fixture
import SourceIndex.Proofs.Acceptance
import SourceIndex.Proofs.GeneratedFiles
import SourceIndex.Proofs.JsonScalar
import SourceIndex.Proofs.SupplyOrder

/-!
# Generated projects are chunked completely

The first call of an indexer with a project of named files, no two of which share a path, adds every file,
degrades none and publishes the chunks of each. A generated project is such a project, whatever its size:
its families lie in directories of their own, and the number in a path tells the files of a family apart.
The files of a family are cut into the same kinds of chunks, which gives the number of all chunks.
-/

namespace SourceIndex

/-! ## The first call -/

namespace ProjectEntry

/-- The kinds of the chunks that are kept of a file. -/
def keptKinds (f : ProjectEntry) (chunkers : Chunkers) : List Chunk.Kind :=
  (FileRecord.ofContent chunkers f.path f.content).chunks.map (·.kind)

/-- A file that has a name and is indexed. -/
structure IsNamed (f : ProjectEntry) : Prop where
  isIndexable : f.isIndexable = true
  isBlank_baseName : (Path.baseName f.path).isBlank = false

/-- What the chunker for a named file makes of it is kept. -/
theorem IsNamed.keptKinds_eq {f : ProjectEntry} (h : f.IsNamed) {settings : Settings}
    {chunker : Chunker} {kinds : List Chunk.Kind}
    (hchunker : settings.chunkers.for? f.path = some chunker)
    (hkinds : chunker.kinds? f.path f.content = some kinds) :
    f.keptKinds settings.chunkers = kinds := by
  obtain ⟨chunker', chunks, hchunker', hchunk, haccepted⟩ :=
    FileRecord.exists_acceptedChunks? settings h.isBlank_baseName f.content
  obtain rfl := Option.some.inj (hchunker.symm.trans hchunker')
  rw [Chunker.kinds?, hchunk] at hkinds
  rw [keptKinds, FileRecord.ofContent, haccepted]
  exact Option.some.inj hkinds

end ProjectEntry

namespace Indexer

section FirstCall

variable {settings : Settings} {files : List ProjectEntry}
  (hdistinct : (files.map (·.path)).Nodup) (hnamed : ∀ f ∈ files, f.IsNamed)
include hdistinct hnamed

/-- The contents of a project of distinct named files are those of all its files. -/
theorem entries_contents_of_named :
    (Project.contents files).entries = files.map fun f => (f.path, f.content) := by
  rw [Project.entries_contents hdistinct,
    List.filter_eq_self.mpr fun f hf => (hnamed f hf).isIndexable]

/-- The first call adds all files. -/
theorem addedFiles_index_fresh :
    ((fresh settings settings.chunkers).index files).2.1.addedFiles = files.length := by
  have hkeys : (Project.fingerprints files).keys = files.map (·.path) := by
    rw [Project.fingerprints, OrderedMap.keys_mapValues]
    show (Project.contents files).entries.map Prod.fst = _
    rw [entries_contents_of_named hdistinct hnamed, List.map_map]
    rfl
  have hadded : (Delta.between ({} : Snapshot).fingerprints (Project.fingerprints files)).added =
      files.map (·.path) := by
    rw [Delta.added_eq_filter, hkeys]
    exact List.filter_eq_self.mpr fun path _ => rfl
  rw [index, refresh_of_not_skips (not_skips_of_root_eq_nil rfl files)]
  show (Delta.between ({} : Snapshot).fingerprints (Project.fingerprints files)).added.length = _
  rw [hadded, List.length_map]

/-- The first call degrades no file. -/
theorem degraded_index_fresh :
    Json.field? ((fresh settings settings.chunkers).index files).2.2.metadata
      "degraded_files".toList = some (.arr []) := by
  have hnone : ({} : Snapshot).degradedIn settings.chunkers (Project.contents files) = [] := by
    rw [Snapshot.degradedIn, entries_contents_of_named hdistinct hnamed, List.map_eq_nil_iff,
      List.filter_eq_nil_iff]
    intro entry hentry
    obtain ⟨f, hf, rfl⟩ := List.mem_map.mp hentry
    show ¬ (_ && FileRecord.isDegraded settings.chunkers f.path f.content) = true
    rw [FileRecord.isDegraded_eq_false settings (hnamed f hf).isBlank_baseName]
    simp
  rw [index, refresh_of_not_skips (not_skips_of_root_eq_nil rfl files)]
  show some (Json.arr ((({} : Snapshot).degradedIn settings.chunkers
    (Project.contents files)).map .str)) = _
  rw [hnone]
  rfl

/-- The records of the first call. -/
theorem entries_records :
    ((Project.contents files).mapValues (.ofContent settings.chunkers)).entries =
      files.map fun f => (f.path, FileRecord.ofContent settings.chunkers f.path f.content) := by
  rw [OrderedMap.entries_mapValues, entries_contents_of_named hdistinct hnamed, List.map_map]
  rfl

/-- The first call makes as many chunks as are kept of the files. -/
theorem totalChunks_index_fresh :
    ((fresh settings settings.chunkers).index files).2.1.totalChunks =
      (files.map fun f => (f.keptKinds settings.chunkers).length).sum := by
  show ((fresh settings settings.chunkers).index files).1.snapshot.chunks.length = _
  rw [snapshot_index_fresh, Snapshot.length_chunks_ofFiles]
  rw [Snapshot.chunksOf, OrderedMap.values, entries_records hdistinct hnamed,
    List.length_flatMap, List.map_map, List.map_map]
  simp only [Function.comp_def, ProjectEntry.keptKinds, List.length_map]

/-- The first call publishes the chunks that are kept of a file. -/
theorem kinds_chunksAt_index_fresh {f : ProjectEntry} (hf : f ∈ files) :
    (((fresh settings settings.chunkers).index files).1.snapshot.chunksAt f.path).map (·.kind) =
      f.keptKinds settings.chunkers := by
  have hcut := Snapshot.cutBy_mapValues settings (Project.contents files)
  have hentry : (f.path, FileRecord.ofContent settings.chunkers f.path f.content) ∈
      ((Project.contents files).mapValues (.ofContent settings.chunkers)).entries := by
    rw [entries_records hdistinct hnamed]
    exact List.mem_map.mpr ⟨f, hf, rfl⟩
  have hchunks := Snapshot.chunksAt_of_cutBy hcut 1 hentry
  rw [snapshot_index_fresh, ProjectEntry.keptKinds, ← hchunks, List.map_map]
  rfl

end FirstCall

end Indexer

/-! ## Paths with numbers -/

/-- Zeros in front of a number do not change it. -/
theorem Json.digitsValue_replicate_append (k : Nat) (digits : Text) :
    digitsValue (List.replicate k '0' ++ digits) = digitsValue digits := by
  have hzeros : ∀ k : Nat, (List.replicate k '0').foldl
      (fun n c => 10 * n + (c.toNat - '0'.toNat)) 0 = 0 := by
    intro k
    induction k with
    | zero => rfl
    | succ k ih => exact ih
  rw [digitsValue, List.foldl_append, hzeros]
  rfl

/-- A text around a number is not blank. -/
theorem Text.isBlank_number {n : Text} (hn : IsNumber n) (a b : Text) :
    (a ++ n ++ b).isBlank = false := by
  obtain ⟨d, rest, rfl, hd⟩ := hn.exists_eq_cons
  rw [← Bool.not_eq_true]
  intro hblank
  have hmem : d ∈ a ++ d :: rest ++ b := by simp
  have hdigit := List.all_eq_true.mp hblank d hmem
  rw [isBlankChar_of_isDigit hd] at hdigit
  cases hdigit

/-- The name of a file whose path has a number behind its last separator. -/
theorem Path.baseName_number {n : Text} (hn : IsNumber n) (directory : Text) {a b : Text}
    (ha : a.all (fun c => c != '/' && c != '\\') = true)
    (hb : b.all (fun c => c != '/' && c != '\\') = true) :
    baseName ((directory ++ '/' :: a) ++ n ++ b) = a ++ n ++ b := by
  have hpath : (directory ++ '/' :: a) ++ n ++ b = directory ++ '/' :: (a ++ n ++ b) := by simp
  have hne : a ++ n ++ b ≠ [] := by simp [hn.ne_nil]
  rw [hpath]
  refine baseName_append directory hne fun c hc => ?_
  simpa using List.all_eq_true.mp (hn.all_append (by decide) ha hb) c hc

namespace Benchmark.Profile

theorem isNumber_fourDigits (n : Nat) : IsNumber (fourDigits n) := by
  have hn := isNumber_ofNat n
  refine ⟨List.append_ne_nil_of_right_ne_nil _ hn.ne_nil, fun c hc => ?_⟩
  rcases List.mem_append.mp hc with hzero | hc
  · rw [List.eq_of_mem_replicate hzero]
    rfl
  · exact hn.isDigit c hc

theorem fourDigits_injective : Function.Injective fourDigits := by
  intro m n h
  have hvalue : ∀ n, Json.digitsValue (fourDigits n) = n := by
    intro n
    rw [fourDigits, Json.digitsValue_replicate_append, Json.digitsValue_ofNat]
  rw [← hvalue m, h, hvalue]

section Numbered

variable {count : Nat} {start stop : String} {number content : Nat → Text}

theorem mem_numbered {f : ProjectEntry} :
    f ∈ numbered count start stop number content ↔
      ∃ i < count, { path := start.toList ++ number i ++ stop.toList, content := content i } = f := by
  rw [numbered, List.mem_map]
  simp only [List.mem_range]

/-- Different numbers give different paths. -/
theorem nodup_paths_numbered (hinjective : Function.Injective number) :
    ((numbered count start stop number content).map (·.path)).Nodup := by
  rw [numbered, List.map_map]
  refine List.Nodup.map (fun i j hpath => hinjective ?_) List.nodup_range
  exact List.append_cancel_left (List.append_cancel_right hpath)

end Numbered

/-! ## Families -/

/-- The files of one kind, the fifth character of their paths, and the kinds of the chunks of each
file. -/
structure Family where
  mark : Char
  kinds : List Chunk.Kind
  files : List ProjectEntry

namespace Family

/-- The files of a family have names and paths of their own, all with the mark, and each is cut into
the same kinds. -/
structure WellFormed (g : Family) : Prop where
  nodup : (g.files.map (·.path)).Nodup
  mark : ∀ f ∈ g.files, f.path[4]? = some g.mark
  isNamed : ∀ f ∈ g.files, f.IsNamed
  keptKinds : ∀ f ∈ g.files, f.keptKinds ({} : Settings).chunkers = g.kinds

/-- Numbered files in a directory are a family. -/
theorem wellFormed_numbered {count : Nat} {start stop : String} {number content : Nat → Text}
    {mark : Char} {kinds : List Chunk.Kind} {chunker : Chunker} (directory rest : Text)
    (hnumber : ∀ i, IsNumber (number i)) (hinjective : Function.Injective number)
    (hstart : start.toList = directory ++ '/' :: rest)
    (hmark : start.toList[4]? = some mark)
    (hrest : rest.all (fun c => c != '/' && c != '\\') = true)
    (hstop : stop.toList.all (fun c => c != '/' && c != '\\') = true)
    (hcontent : ∀ i, (content i).isEmpty = false)
    (hchunker : ∀ path s, path.lower = s ++ Text.lower stop.toList →
      ({} : Settings).chunkers.for? path = some chunker)
    (hkinds : ∀ path i, chunker.kinds? path (content i) = some kinds) :
    WellFormed ⟨mark, kinds, numbered count start stop number content⟩ := by
  have hnamed : ∀ f ∈ numbered count start stop number content, f.IsNamed := by
    intro f hf
    obtain ⟨i, -, rfl⟩ := mem_numbered.mp hf
    have hname := Path.baseName_number (hnumber i) directory hrest hstop
    rw [← hstart] at hname
    refine ⟨?_, ?_⟩
    · show (true && !(content i).isEmpty) = true
      rw [hcontent]
      rfl
    · show (Path.baseName (start.toList ++ number i ++ stop.toList)).isBlank = false
      rw [hname]
      exact Text.isBlank_number (hnumber i) _ _
  refine ⟨nodup_paths_numbered hinjective, fun f hf => ?_, hnamed, fun f hf => ?_⟩
  · obtain ⟨i, -, rfl⟩ := mem_numbered.mp hf
    show (start.toList ++ number i ++ stop.toList)[4]? = some mark
    obtain ⟨hlt, -⟩ := List.getElem?_eq_some_iff.mp hmark
    rw [List.append_assoc, List.getElem?_append_left hlt, hmark]
  · obtain ⟨i, -, rfl⟩ := mem_numbered.mp hf
    obtain ⟨s, hlower⟩ := Text.exists_lower_number (hnumber i) start.toList stop.toList
    exact (hnamed _ hf).keptKinds_eq (hchunker _ s hlower) (hkinds _ i)

section Families

variable {families : List Family} (hmarks : (families.map (·.mark)).Nodup)
  (h : ∀ g ∈ families, g.WellFormed)

include h in
/-- The files of families have names. -/
theorem isNamed_flatMap : ∀ f ∈ families.flatMap (·.files), f.IsNamed := by
  intro f hf
  obtain ⟨g, hg, hf⟩ := List.mem_flatMap.mp hf
  exact (h g hg).isNamed f hf

include h in
/-- The chunks of the files of families are those of each family. -/
theorem sum_keptKinds : ((families.flatMap (·.files)).map fun f =>
      (f.keptKinds ({} : Settings).chunkers).length).sum =
    (families.map fun g => g.kinds.length * g.files.length).sum := by
  induction families with
  | nil => rfl
  | cons g rest ih =>
    obtain ⟨hg, hrest⟩ := List.forall_mem_cons.mp h
    have hfamily : (g.files.map fun f => (f.keptKinds ({} : Settings).chunkers).length) =
        List.replicate g.files.length g.kinds.length := by
      rw [← List.map_const']
      exact List.map_congr_left fun f hf => by rw [hg.keptKinds f hf]
    rw [List.flatMap_cons, List.map_append, List.sum_append, ih hrest, hfamily,
      List.sum_replicate_nat, List.map_cons, List.sum_cons, Nat.mul_comm]

include hmarks h in
/-- Families with marks of their own share no path. -/
theorem nodup_paths_flatMap : ((families.flatMap (·.files)).map (·.path)).Nodup := by
  rw [List.map_flatMap, List.nodup_flatMap]
  refine ⟨fun g hg => (h g hg).nodup, ?_⟩
  refine (List.pairwise_map.mp hmarks).imp_of_mem fun {g g'} hg hg' hne path hpath hpath' => ?_
  obtain ⟨f, hf, rfl⟩ := List.mem_map.mp hpath
  obtain ⟨f', hf', heq⟩ := List.mem_map.mp hpath'
  have hmark := (h g hg).mark f hf
  have hmark' := (h g' hg').mark f' hf'
  rw [heq, hmark] at hmark'
  exact hne (Option.some.inj hmark')

end Families

end Family

/-! ## Generated projects -/

section Chunkers

variable {path s : Text}

/-- The default chunker for a path that ends like a script. -/
theorem for?_script {e : Text} (he : e ∈ Script.defaultExtensions)
    (hlower : path.lower = s ++ Text.lower e) :
    ({} : Settings).chunkers.for? path = some (Script.chunker Script.defaultExtensions) := by
  have hscript : (Script.chunker ({} : Settings).scriptExtensions).supports path = true :=
    Path.hasExtension_of_mem hlower he List.suffix_rfl
  simp only [Chunkers.for?, Settings.chunkers, List.find?_cons, hscript, Option.some_or]

/-- The default chunker for a path that ends like a stylesheet. -/
theorem for?_stylesheet (hlower : path.lower = s ++ Text.lower ".css".toList) :
    ({} : Settings).chunkers.for? path =
      some (Stylesheet.chunker Stylesheet.defaultExtensions) := by
  have hscript : (Script.chunker ({} : Settings).scriptExtensions).supports path = false :=
    Path.hasExtension_eq_false hlower (by decide)
  have hstylesheet :
      (Stylesheet.chunker ({} : Settings).stylesheetExtensions).supports path = true :=
    Path.hasExtension_of_mem hlower List.mem_cons_self List.suffix_rfl
  simp only [Chunkers.for?, Settings.chunkers, List.find?_cons, hscript, hstylesheet,
    Option.some_or]

/-- The default chunker for a path that ends like a query file. -/
theorem for?_query (hlower : path.lower = s ++ Text.lower ".sql".toList) :
    ({} : Settings).chunkers.for? path =
      some (QueryFile.chunker QueryFile.defaultExtensions) := by
  have hscript : (Script.chunker ({} : Settings).scriptExtensions).supports path = false :=
    Path.hasExtension_eq_false hlower (by decide)
  have hstylesheet :
      (Stylesheet.chunker ({} : Settings).stylesheetExtensions).supports path = false :=
    Path.hasExtension_eq_false hlower (by decide)
  have hquery : (QueryFile.chunker ({} : Settings).queryExtensions).supports path = true :=
    Path.hasExtension_of_mem hlower List.mem_cons_self List.suffix_rfl
  simp only [Chunkers.for?, Settings.chunkers, List.find?_cons, hscript, hstylesheet, hquery,
    Option.some_or]

end Chunkers

/-- The file of structured data at the end of a generated project. -/
def manifest : ProjectEntry where
  path := "package.json".toList
  content := "\x7b\n  \"name\": \"fixture\"\n\x7d\n".toList

section Families

variable (p : Profile)

/-- The hooks of a generated project. -/
def hookFiles : Family :=
  ⟨'h', [.imports, .hook], numbered p.hooks "src/hooks/useProfile" ".ts" Text.ofNat hookSource⟩

/-- The components of a generated project. -/
def componentFiles : Family :=
  ⟨'c', [.imports, .component],
    numbered p.components "src/components/UserCard" ".tsx" Text.ofNat componentSource⟩

/-- The utilities of a generated project. -/
def utilityFiles : Family :=
  ⟨'l', [.constant, .function], numbered p.utilities "src/lib/util" ".ts" Text.ofNat utilitySource⟩

/-- The stylesheets of a generated project. -/
def stylesheetFiles : Family :=
  ⟨'s', [.style, .style],
    numbered p.stylesheets "src/styles/theme" ".css" Text.ofNat stylesheetSource⟩

/-- The migrations of a generated project. -/
def migrationFiles : Family :=
  ⟨'i', [.query, .query], numbered p.migrations "db/migrations/" ".sql" fourDigits migrationSource⟩

/-- The file of structured data of a generated project. -/
def manifestFiles : Family :=
  ⟨'a', [.config], [manifest]⟩

/-- The families of a generated project. -/
def families : List Family :=
  [p.hookFiles, p.componentFiles, p.utilityFiles, p.stylesheetFiles, p.migrationFiles,
    manifestFiles]

theorem files_eq : p.files = p.families.flatMap (·.files) := by
  simp only [files, families, List.flatMap_cons, List.flatMap_nil, List.append_assoc,
    List.append_nil]
  rfl

theorem wellFormed_hookFiles : p.hookFiles.WellFormed :=
  Family.wellFormed_numbered "src/hooks".toList "useProfile".toList isNumber_ofNat
    (fun _ _ => Text.ofNat_inj) rfl rfl (by decide) (by decide) (fun _ => rfl)
    (fun _ _ => for?_script (by decide)) (kinds?_hookSource _)

theorem wellFormed_componentFiles : p.componentFiles.WellFormed :=
  Family.wellFormed_numbered "src/components".toList "UserCard".toList isNumber_ofNat
    (fun _ _ => Text.ofNat_inj) rfl rfl (by decide) (by decide) (fun _ => rfl)
    (fun _ _ => for?_script (by decide)) (kinds?_componentSource _)

theorem wellFormed_utilityFiles : p.utilityFiles.WellFormed :=
  Family.wellFormed_numbered "src/lib".toList "util".toList isNumber_ofNat
    (fun _ _ => Text.ofNat_inj) rfl rfl (by decide) (by decide) (fun _ => rfl)
    (fun _ _ => for?_script (by decide)) (kinds?_utilitySource _)

theorem wellFormed_stylesheetFiles : p.stylesheetFiles.WellFormed :=
  Family.wellFormed_numbered "src/styles".toList "theme".toList isNumber_ofNat
    (fun _ _ => Text.ofNat_inj) rfl rfl (by decide) (by decide) (fun _ => rfl)
    (fun _ _ => for?_stylesheet) (kinds?_stylesheetSource _)

theorem wellFormed_migrationFiles : p.migrationFiles.WellFormed :=
  Family.wellFormed_numbered "db/migrations".toList [] isNumber_fourDigits
    fourDigits_injective rfl rfl rfl (by decide) (fun _ => rfl)
    (fun _ _ => for?_query) (kinds?_migrationSource _)

theorem wellFormed_manifestFiles : manifestFiles.WellFormed := by
  constructor
  case nodup => decide
  case mark => exact List.forall_mem_singleton.mpr rfl
  case isNamed => exact List.forall_mem_singleton.mpr ⟨rfl, by decide⟩
  case keptKinds => exact List.forall_mem_singleton.mpr (by decide)

/-- Each family of a generated project is one, whatever its size. -/
theorem wellFormed_families : ∀ g ∈ p.families, g.WellFormed := by
  simp only [families, List.forall_mem_cons]
  exact ⟨p.wellFormed_hookFiles, p.wellFormed_componentFiles, p.wellFormed_utilityFiles,
    p.wellFormed_stylesheetFiles, p.wellFormed_migrationFiles, wellFormed_manifestFiles,
    List.forall_mem_nil _⟩

end Families

/-- Generated projects of any size are chunked completely. The first call of a new indexer adds all their
files, degrades none and makes two chunks of each file and one of the manifest:
* the imports and a component of each component,
* the imports and a hook of each hook,
* a constant and a function of each utility,
* two rule sets of each stylesheet,
* two statements of each migration,
* the whole manifest. -/
theorem index_generated_project (p : Profile) :
    let call := ({} : Indexer).index p.files
    let kindsAt := fun path => (call.1.snapshot.chunksAt path).map (·.kind)
    let numberedFiles := p.components + p.hooks + p.utilities + p.stylesheets + p.migrations
    call.2.1.addedFiles = numberedFiles + 1 ∧
    Json.field? call.2.2.metadata "degraded_files".toList = some (.arr []) ∧
    call.2.1.totalChunks = 2 * numberedFiles + 1 ∧
    (∀ i < p.components,
      kindsAt ("src/components/UserCard".toList ++ Text.ofNat i ++ ".tsx".toList) =
        [.imports, .component]) ∧
    (∀ i < p.hooks,
      kindsAt ("src/hooks/useProfile".toList ++ Text.ofNat i ++ ".ts".toList) =
        [.imports, .hook]) ∧
    (∀ i < p.utilities,
      kindsAt ("src/lib/util".toList ++ Text.ofNat i ++ ".ts".toList) =
        [.constant, .function]) ∧
    (∀ i < p.stylesheets,
      kindsAt ("src/styles/theme".toList ++ Text.ofNat i ++ ".css".toList) =
        [.style, .style]) ∧
    (∀ i < p.migrations,
      kindsAt ("db/migrations/".toList ++ fourDigits i ++ ".sql".toList) =
        [.query, .query]) ∧
    kindsAt "package.json".toList = [.config] := by
  intro call kindsAt numberedFiles
  have hfamilies := wellFormed_families p
  have hdistinct : (p.files.map (·.path)).Nodup := by
    have hmarks : (p.families.map (·.mark)).Nodup := by
      show ['h', 'c', 'l', 's', 'i', 'a'].Nodup
      decide
    rw [files_eq]
    exact Family.nodup_paths_flatMap hmarks hfamilies
  have hnamed : ∀ f ∈ p.files, f.IsNamed := by
    rw [files_eq]
    exact Family.isNamed_flatMap hfamilies
  have hkinds : ∀ g ∈ p.families, ∀ f ∈ g.files, kindsAt f.path = g.kinds := by
    intro g hg f hf
    have hfile : f ∈ p.files := by
      rw [files_eq]
      exact List.mem_flatMap.mpr ⟨g, hg, hf⟩
    exact (Indexer.kinds_chunksAt_index_fresh hdistinct hnamed hfile).trans
      ((hfamilies g hg).keptKinds f hf)
  have hlength : p.files.length = numberedFiles + 1 := by
    simp only [files, numbered, List.length_append, List.length_map, List.length_range,
      List.length_singleton, numberedFiles]
    omega
  have hchunks : (p.families.map fun g => g.kinds.length * g.files.length).sum =
      2 * numberedFiles + 1 := by
    simp only [families, hookFiles, componentFiles, utilityFiles, stylesheetFiles, migrationFiles,
      manifestFiles, numbered, List.map_cons, List.map_nil, List.sum_cons, List.sum_nil,
      List.length_cons, List.length_nil, List.length_map, List.length_range, numberedFiles]
    omega
  have hadded : call.2.1.addedFiles = p.files.length :=
    Indexer.addedFiles_index_fresh hdistinct hnamed
  have htotal : call.2.1.totalChunks =
      (p.files.map fun f => (f.keptKinds ({} : Settings).chunkers).length).sum :=
    Indexer.totalChunks_index_fresh hdistinct hnamed
  refine ⟨hadded.trans hlength, Indexer.degraded_index_fresh hdistinct hnamed, ?_,
    fun i hi => ?_, fun i hi => ?_, fun i hi => ?_, fun i hi => ?_, fun i hi => ?_, ?_⟩
  · rw [htotal, files_eq, Family.sum_keptKinds hfamilies, hchunks]
  · exact hkinds p.componentFiles (by simp [families]) _ (mem_numbered.mpr ⟨i, hi, rfl⟩)
  · exact hkinds p.hookFiles (by simp [families]) _ (mem_numbered.mpr ⟨i, hi, rfl⟩)
  · exact hkinds p.utilityFiles (by simp [families]) _ (mem_numbered.mpr ⟨i, hi, rfl⟩)
  · exact hkinds p.stylesheetFiles (by simp [families]) _ (mem_numbered.mpr ⟨i, hi, rfl⟩)
  · exact hkinds p.migrationFiles (by simp [families]) _ (mem_numbered.mpr ⟨i, hi, rfl⟩)
  · exact hkinds manifestFiles (by simp [families]) _ List.mem_cons_self

end Benchmark.Profile

end SourceIndex
