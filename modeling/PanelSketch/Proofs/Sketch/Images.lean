import PanelSketch.Proofs.Project.WellFormed
import PanelSketch.Proofs.Sketch.Bundle
import PanelSketch.Proofs.Sketch.HeaderText

/-!
# Images Are Where a Sketch Looks for Them

A sketch, its header and its archive are written one by one, and only the names
in them hold them together. A screen asks for an image by the name of an asset:
as a background, or through an image element. What the sketch draws there has to
be what the other two supply under the name it uses.

The requests of a project are collected in the order in which routines are
written, and so are the lines of the sketch that draw images. One by one, a
request that some asset answers goes with a line, and the line goes with an array in
the text of the header or a file of the archive that belongs to the first such asset.

All of this is said of texts. The names in remarks may break lines of a sketch, but no
line that draws an image holds such a name, so each of them is a line of the text too.

## Main definitions

* `Project.imageRequests`: The images a project asks for, with their boxes.
* `drawsImage`: Whether a line draws an image.
* `Supplied`: A line that draws what a request means, and finds it.
* `ExportsAgree`: What the exports of a project owe to each other.

## Theorems

* `Sketch.filter_drawsImage`: The lines that draw images follow the requests.
* `sublist_lines`: Unbroken lines are lines of the text they are written into.
* `Supplied.of_entry`: What is drawn is supplied.
* `exportsAgree_ofProject`: Sketch, header and archive agree.
-/

namespace PanelSketch

/-! ### Requests -/

/-- The image that a screen asks for as its background. -/
def Screen.backgroundRequest? (panel : Panel) (s : Screen) : Option (String × Box) :=
  (reference? s.backgroundAsset).map fun name =>
    (name, ⟨0, 0, panel.width.toNat, panel.height.toNat⟩)

/-- The image that an element asks for. -/
def Element.imageRequest? (e : Element) : Option (String × Box) :=
  if e.kind = .pushImage then (reference? e.asset).map fun name => (name, e.box) else none

/-- The images that a screen asks for, from back to front. -/
def Screen.imageRequests (panel : Panel) (s : Screen) : List (String × Box) :=
  (s.backgroundRequest? panel).toList ++ s.elements.filterMap Element.imageRequest?

/-- The images that a project asks for, each by the name of an asset and with the
    box it is drawn in. -/
def Project.imageRequests (panel : Panel) (p : Project) : List (String × Box) :=
  p.screens.flatMap (Screen.imageRequests panel)

/-- The line that draws what is asked for, when the name leads to an asset. -/
def AssetSymbols.draw? (symbols : AssetSymbols) (request : String × Box) : Option String :=
  (symbols.resolve? request.1).map fun entry =>
    (Line.calls [imageCall entry.1 entry.2 request.2]).render

/-! ### Lines that draw images -/

/-- What a line that draws an image begins with. -/
def imageStems : List String :=
  ["    tft.pushImage(", "    TJpgDec.drawFsJpg("]

/-- Whether a line draws an image. -/
def drawsImage (line : String) : Bool :=
  imageStems.any fun stem => stem.toList.isPrefixOf line.toList

/-- The one line of every sketch that draws an image: the callback passes on what has
    been decoded. -/
def callbackLine : String := "    tft.pushImage(x, y, w, h, bitmap);"

/-- A line of calls begins with the name of the first. -/
theorem exists_render_calls (c : Call) (cs : List Call) :
    ∃ rest, (Line.calls (c :: cs)).render = indent ++ (c.callee ++ ("(" ++ rest)) := by
  have hcall : ∃ rest, c.render = c.callee ++ ("(" ++ rest) := by
    refine ⟨", ".intercalate (c.arguments.map Argument.render) ++ ");", ?_⟩
    simp only [Call.render, String.append_assoc]
  rcases hcall with ⟨rest, hcall⟩
  rw [Line.render, List.map_cons, hcall]
  rcases cs.map Call.render with _ | ⟨t, ts⟩
  · exact ⟨rest, by rw [String.intercalate_singleton]⟩
  · refine ⟨rest ++ " " ++ " ".intercalate (t :: ts), ?_⟩
    simp only [String.intercalate_cons_cons, String.append_assoc]

theorem drawsImage_remark (text : String) : drawsImage (Line.remark text).render = false := by
  simp only [drawsImage, Line.render_remark, String.toList_append]
  rfl

theorem drawsImage_imageCall (a : Asset) (s : String) (b : Box) :
    drawsImage (Line.calls [imageCall a s b]).render = true := by
  rcases exists_render_calls (imageCall a s b) [] with ⟨rest, hrender⟩
  rw [hrender]
  unfold imageCall
  split
  · simp only [drawsImage, panelCall, String.toList_append]
    rfl
  · simp only [drawsImage, String.toList_append]
    rfl

/-- Of the calls of the graphics library that an element may stand for, only one
    draws an image. -/
theorem drawsImage_panelCall {p : Primitive} (h : p ≠ .pushImage) (arguments : List Argument) :
    drawsImage (Line.calls [panelCall p.tag arguments]).render = false := by
  rcases exists_render_calls (panelCall p.tag arguments) [] with ⟨rest, hrender⟩
  rw [hrender]
  simp only [drawsImage, panelCall, String.toList_append]
  cases p with
  | pushImage => exact absurd rfl h
  | _ => rfl

theorem drawsImage_style (e : Element) :
    drawsImage (Line.calls [panelCall "setTextColor" [.color e.paint],
      panelCall "setTextSize" [.number e.box.textSize]]).render = false := by
  rcases exists_render_calls (panelCall "setTextColor" [.color e.paint])
    [panelCall "setTextSize" [.number e.box.textSize]] with ⟨rest, hrender⟩
  rw [hrender]
  simp only [drawsImage, panelCall, String.toList_append]
  rfl

/-- The lines among those of a routine that draw images. -/
def imageLines (lines : List Line) : List String :=
  (lines.map Line.render).filter drawsImage

theorem imageLines_append (first second : List Line) :
    imageLines (first ++ second) = imageLines first ++ imageLines second := by
  rw [imageLines, List.map_append, List.filter_append]
  rfl

theorem imageLines_cons_of_neg {l : Line} (h : drawsImage l.render = false) (lines : List Line) :
    imageLines (l :: lines) = imageLines lines := by
  rw [imageLines, List.map_cons, List.filter_cons_of_neg (Bool.eq_false_iff.mp h)]
  rfl

theorem imageLines_imageCall (a : Asset) (s : String) (b : Box) :
    imageLines [.calls [imageCall a s b]] = [(Line.calls [imageCall a s b]).render] := by
  rw [imageLines, List.map_singleton, List.filter_cons_of_pos (drawsImage_imageCall a s b)]
  rfl

theorem imageLines_fillLines (s : Screen) : imageLines s.fillLines = [] := by
  have hfill : Primitive.fillScreen.tag = "fillScreen" := rfl
  unfold Screen.fillLines
  split
  · rw [← hfill, imageLines_cons_of_neg (drawsImage_panelCall (by decide) _)]
    rfl
  · rfl

theorem imageLines_backgroundLines (symbols : AssetSymbols) (panel : Panel) (s : Screen) :
    imageLines (s.backgroundLines symbols panel)
      = ((s.backgroundRequest? panel).toList).filterMap symbols.draw? := by
  unfold Screen.backgroundLines Screen.backgroundRequest?
  rcases reference? s.backgroundAsset with _ | name
  · exact imageLines_fillLines s
  · rcases hr : symbols.resolve? name with _ | ⟨a, symbol⟩
    · simp only [Option.bind_some, hr, imageLines_fillLines, Option.map_some, Option.toList_some,
        AssetSymbols.draw?, Option.map_none, List.filterMap_cons, List.filterMap_nil]
    · simp only [Option.bind_some, hr, Option.map_some, Option.toList_some, AssetSymbols.draw?,
        List.filterMap_cons, List.filterMap_nil, imageLines_imageCall]

theorem imageLines_lines {symbols : AssetSymbols} {cornerRadius : Nat} {e : Element}
    (h : e.kind ≠ .pushImage) : imageLines (e.lines symbols cornerRadius) = [] := by
  unfold Element.lines
  split
  · exact absurd (by assumption) h
  · rw [imageLines_cons_of_neg (drawsImage_style e),
      imageLines_cons_of_neg (drawsImage_panelCall h _)]
    rfl
  · rw [imageLines_cons_of_neg (drawsImage_style e),
      imageLines_cons_of_neg (drawsImage_panelCall h _)]
    rfl
  · rw [imageLines_cons_of_neg (drawsImage_panelCall h _)]
    rfl

theorem imageLines_imageLine (symbols : AssetSymbols) {e : Element} (h : e.kind = .pushImage) :
    imageLines [e.imageLine symbols] = (e.imageRequest?.toList).filterMap symbols.draw? := by
  rw [Element.imageRequest?, if_pos h]
  unfold Element.imageLine
  rcases reference? e.asset with _ | name
  · rw [imageLines_cons_of_neg (drawsImage_remark _)]
    rfl
  · rcases hr : symbols.resolve? name with _ | ⟨a, symbol⟩
    · simp only [hr, imageLines_cons_of_neg (drawsImage_remark _), Option.map_some,
        Option.toList_some, AssetSymbols.draw?, Option.map_none, List.filterMap_cons,
        List.filterMap_nil]
      rfl
    · simp only [hr, Option.map_some, Option.toList_some, AssetSymbols.draw?, List.filterMap_cons,
        List.filterMap_nil, imageLines_imageCall]

theorem imageLines_block (symbols : AssetSymbols) (cornerRadius : Nat) (e : Element) :
    imageLines (e.block symbols cornerRadius)
      = (e.imageRequest?.toList).filterMap symbols.draw? := by
  rw [Element.block, imageLines_cons_of_neg (drawsImage_remark _)]
  by_cases hkind : e.kind = .pushImage
  · -- An image element is a single line, which draws it or remarks that it cannot.
    have hlines : e.lines symbols cornerRadius = [e.imageLine symbols] := by
      unfold Element.lines
      rw [hkind]
    rw [hlines, imageLines_imageLine symbols hkind]
  · rw [Element.imageRequest?, if_neg hkind, imageLines_lines hkind]
    rfl

/-- The lines of a screen that draw images follow its requests. -/
theorem imageLines_screen (symbols : AssetSymbols) (panel : Panel) (s : Screen) :
    imageLines (s.lines symbols panel) = (s.imageRequests panel).filterMap symbols.draw? := by
  have helements : ∀ es : List Element,
      imageLines (es.flatMap fun e => e.block symbols panel.cornerRadius.toNat)
        = (es.filterMap Element.imageRequest?).filterMap symbols.draw? := by
    intro es
    induction es with
    | nil => rfl
    | cons e es ih =>
        rw [List.flatMap_cons, imageLines_append, imageLines_block, ih, List.filterMap_cons]
        rcases e.imageRequest? with _ | request
        · rfl
        · exact (List.filterMap_append (l := [request])).symm
  rw [Screen.lines, imageLines_append, imageLines_backgroundLines, helements,
    Screen.imageRequests, List.filterMap_append]

/-- Neither the head of a routine nor its end draws an image. -/
theorem filter_textLines (r : Routine) : r.textLines.filter drawsImage = imageLines r.lines := by
  have hhead : drawsImage ("void " ++ Routine.name r.screen ++ "() \x7b") = false := by
    simp only [drawsImage, String.toList_append, List.append_assoc]
    rfl
  have hend : ["\x7d", ""].filter drawsImage = [] := by decide
  rw [Routine.textLines, List.filter_append, hend, List.append_nil,
    List.filter_cons_of_neg (Bool.eq_false_iff.mp hhead), imageLines]

theorem filter_openingLines (header : String) :
    (Sketch.openingLines header).filter drawsImage = [callbackLine] := by
  have hinclude : drawsImage ("#include \"" ++ header ++ "\"") = false := by
    simp only [drawsImage, String.toList_append, List.append_assoc]
    rfl
  rw [Sketch.openingLines_eq, List.filter_append, List.filter_cons_of_neg (Bool.eq_false_iff.mp hinclude)]
  decide

theorem filter_closingLines (rotation : UInt8) :
    (Sketch.closingLines rotation).filter drawsImage = [] := by
  have hrotation : drawsImage ("    tft.setRotation(" ++ rotation.toNat.repr ++ ");") = false := by
    simp only [drawsImage, String.toList_append, List.append_assoc]
    rfl
  rw [Sketch.closingLines_eq, List.filter_append, List.filter_cons_of_neg (Bool.eq_false_iff.mp hrotation)]
  decide

/-- Behind the callback, the lines of a sketch that draw images follow the requests of
    its project. -/
theorem Sketch.filter_drawsImage (settings : Settings) (p : Project) :
    (ofProject settings p).textLines.filter drawsImage = callbackLine
      :: (p.imageRequests settings.panel).filterMap (AssetSymbols.ofAssets p.assets).draw? := by
  let symbols := AssetSymbols.ofAssets p.assets
  have hscreens : ∀ (names : List String) (ss : List Screen), names.length = ss.length →
      ((List.zipWith (fun name s => Routine.mk name (s.lines symbols settings.panel)) names
          ss).flatMap Routine.textLines).filter drawsImage
        = (ss.flatMap (Screen.imageRequests settings.panel)).filterMap symbols.draw? := by
    intro names ss h
    induction ss generalizing names with
    | nil => rw [List.length_eq_zero_iff.mp h]; rfl
    | cons s ss ih =>
        rcases names with _ | ⟨name, names⟩
        · exact absurd h (Nat.succ_ne_zero _).symm
        · -- The name of a routine plays no part in what it draws.
          rw [List.zipWith_cons_cons, List.flatMap_cons, List.flatMap_cons, List.filter_append,
            List.filterMap_append, filter_textLines, imageLines_screen, ih names (Nat.succ.inj h)]
  have hroutines := hscreens (screenNames p.screens) p.screens
    (by rw [screenNames, Text.NamePool.length_claimAll, List.length_map])
  rw [textLines, List.filter_append, List.filter_append, filter_closingLines, List.append_nil]
  exact (congrArg₂ (· ++ ·) (filter_openingLines _) hroutines)

/-- Lines that hold no line feed are lines of the text they are written into. -/
theorem sublist_lines {keep : String → Bool} {pieces : List String}
    (h : ∀ l ∈ pieces, keep l = true → '\n' ∉ l.toList) :
    (pieces.filter keep).Sublist (Text.lines (Sketch.joinLines pieces)) := by
  rw [lines_joinLines]
  refine List.Sublist.trans ?_ (List.sublist_append_left _ _)
  induction pieces with
  | nil => exact List.Sublist.slnil
  | cons l pieces ih =>
      rw [List.forall_mem_cons] at h
      rw [List.flatMap_cons]
      by_cases hkeep : keep l = true
      · rw [List.filter_cons_of_pos hkeep, Text.lines_of_unbroken (h.1 hkeep)]
        exact (ih h.2).cons_cons l
      · rw [List.filter_cons_of_neg hkeep]
        exact (ih h.2).trans (List.sublist_append_right _ _)

/-! ### Supplies -/

/-- The line that draws an image in program memory. -/
def pushImageText (symbol : String) (b : Box) : String :=
  "    tft.pushImage(" ++ b.x.repr ++ ", " ++ b.y.repr ++ ", " ++ b.w.repr ++ ", " ++ b.h.repr ++ ", "
    ++ symbol ++ ");"

/-- The line that draws an image file. -/
def drawFileText (symbol : String) (b : Box) : String :=
  "    TJpgDec.drawFsJpg(" ++ b.x.repr ++ ", " ++ b.y.repr ++ ", \"/" ++ symbol
    ++ ".jpg\", LittleFS);"

theorem render_imageCall_flash {a : Asset} (h : a.storage = .flash) (s : String) (b : Box) :
    (Line.calls [imageCall a s b]).render = pushImageText s b := by
  have hcallee : "    tft.pushImage(" = "    tft." ++ ("pushImage" ++ "(") := by decide
  unfold pushImageText
  simp only [imageCall, h, render_panelCall, List.map_cons, List.map_nil, Argument.render,
    String.intercalate_cons_cons, String.intercalate_singleton, hcallee, String.append_assoc]

theorem render_imageCall_littleFs {a : Asset} (h : a.storage = .littleFs) (s : String) (b : Box) :
    (Line.calls [imageCall a s b]).render = drawFileText s b := by
  have hcallee : "    TJpgDec.drawFsJpg(" = indent ++ ("TJpgDec.drawFsJpg" ++ "(") := by decide
  have hpath : ", \"/" = ", " ++ "\"/" := by decide
  have hclose : ".jpg\", LittleFS);" = imageEnding ++ ("\"" ++ (", " ++ ("LittleFS" ++ ");"))) := by
    decide
  unfold drawFileText
  simp only [imageCall, h, Line.render_call, List.map_cons, List.map_nil, Argument.render,
    String.intercalate_cons_cons, String.intercalate_singleton]
  rw [hcallee, hpath, hclose]
  simp only [String.append_assoc]

/-- A line that draws the image asked for by a name: `i` is the position of the first
    asset with that name, `a` the asset, and `s` the symbol that the line uses. -/
inductive Supplied (p : Project) (files : FileNames) (header : String) (bundle : Bundle) :
    String × Box → String → Prop
  /-- The header declares the symbol once, behind as many others as there are assets in
      program memory in front of the asset. -/
  | flash {name : String} {b : Box} {i : Nat} {a : Asset} {s : String}
      (first : p.assets.findIdx? (·.name == name) = some i)
      (asset : p.assets[i]? = some a)
      (storage : a.storage = .flash)
      (declared : Header.Declares header ((p.assets.take i).countP (·.storage == .flash)) a s) :
      Supplied p files header bundle (name, b) (pushImageText s b)
  /-- The archive holds one file of that name, which is the payload of the asset. -/
  | file {name : String} {b : Box} {i : Nat} {a : Asset} {s : String} {bytes : List UInt8}
      (first : p.assets.findIdx? (·.name == name) = some i)
      (asset : p.assets[i]? = some a)
      (storage : a.storage = .littleFs)
      (payload : Payload.ofDataUrl? a.dataUrl = some bytes)
      (entry : bundle.entries.filter (·.name = files.dataDir ++ "/" ++ s ++ ".jpg")
        = [⟨files.dataDir ++ "/" ++ s ++ ".jpg", bytes⟩]) :
      Supplied p files header bundle (name, b) (drawFileText s b)
  /-- The payload does not decode, and the asset is reported as left out. -/
  | skipped {name : String} {b : Box} {i : Nat} {a : Asset} {s : String}
      (first : p.assets.findIdx? (·.name == name) = some i)
      (asset : p.assets[i]? = some a)
      (storage : a.storage = .littleFs)
      (payload : Payload.ofDataUrl? a.dataUrl = none)
      (reported : a.name ∈ bundle.skipped) :
      Supplied p files header bundle (name, b) (drawFileText s b)

/-- What is drawn for a name that leads to an asset is supplied. -/
theorem Supplied.of_entry {settings : Settings} {p : Project} {bundle : Bundle}
    (h : Bundle.ofProject settings p = .ok bundle) {name : String} {i : Nat} {a : Asset}
    {s : String} (first : p.assets.findIdx? (·.name == name) = some i)
    (hentry : (AssetSymbols.ofAssets p.assets).entries[i]? = some (a, s)) (b : Box) :
    Supplied p settings.files (Header.ofProject settings p).render bundle (name, b)
      (Line.calls [imageCall a s b]).render := by
  have hasset := AssetSymbols.asset_of_entry hentry
  cases hstorage : a.storage with
  | flash =>
      rw [render_imageCall_flash hstorage]
      exact .flash first hasset hstorage (Header.declares_render settings hentry hstorage)
  | littleFs =>
      rw [render_imageCall_littleFs hstorage]
      cases hpayload : Payload.ofDataUrl? a.dataUrl with
      | none =>
          exact .skipped first hasset hstorage hpayload
            (Bundle.mem_skipped h hentry hstorage hpayload)
      | some bytes =>
          exact .file first hasset hstorage hpayload
            (Bundle.filter_entries h hentry hstorage hpayload)

/-- A line that draws an image holds no line feed. -/
theorem unbroken_of_draw? {assets : List Asset} {request : String × Box} {line : String}
    (h : (AssetSymbols.ofAssets assets).draw? request = some line) : '\n' ∉ line.toList := by
  rcases Option.map_eq_some_iff.mp h with ⟨⟨a, symbol⟩, hresolve, rfl⟩
  have hsymbol := (AssetSymbols.safe_ofAssets assets).isLine_of_resolve? hresolve
  exact (Line.isLine_calls (List.forall_mem_singleton.mpr
    (isLine_imageCall a hsymbol request.2))).unbroken

/-! ### Agreement -/

/-- What the texts of the exports of a project owe to each other. -/
structure ExportsAgree (settings : Settings) (p : Project) (bundle : Bundle) : Prop where
  /-- Behind the callback, the lines of the sketch that draw images go one by one with the
      requests that some asset answers, and what each of them draws is supplied. They are
      lines of its text, whatever the names in the remarks hold. -/
  supplied : ∃ statements,
    (Sketch.ofProject settings p).textLines.filter drawsImage
        = "    tft.pushImage(x, y, w, h, bitmap);" :: statements
      ∧ ("    tft.pushImage(x, y, w, h, bitmap);" :: statements).Sublist
        (Text.lines (Sketch.ofProject settings p).render)
      ∧ List.Forall₂ (Supplied p settings.files (Header.ofProject settings p).render bundle)
        ((p.imageRequests settings.panel).filter (·.1 ∈ p.assetNames)) statements
  /-- The text of the header declares the symbol of every asset in program memory, in its
      place among them. -/
  declared : ∀ (i : Nat) (a : Asset), p.assets[i]? = some a → a.storage = .flash →
    ∃ s, (AssetSymbols.ofAssets p.assets).at? i = some s
      ∧ Header.Declares (Header.ofProject settings p).render
        ((p.assets.take i).countP (·.storage == .flash)) a s
  /-- It declares as many different symbols as there are assets in program memory, and so
      no others. -/
  declarations : ∃ symbols : List String,
    (Text.lines (Header.ofProject settings p).render).filter Header.isDeclaration
        = symbols.map Header.declarationOf
      ∧ symbols.Nodup ∧ symbols.length = p.assets.countP (·.storage == .flash)
  length_arrays : (Header.ofProject settings p).arrays.length
    = p.assets.countP (·.storage == .flash)

/-- Sketch, header and archive agree on every image. -/
theorem exportsAgree_ofProject (settings : Settings) (p : Project) {bundle : Bundle}
    (h : Bundle.ofProject settings p = .ok bundle) : ExportsAgree settings p bundle := by
  have hlength : (Header.ofProject settings p).arrays.length
      = p.assets.countP (·.storage == .flash) := by
    rw [Header.length_arrays, ← List.length_map (·.1), AssetSymbols.map_fst_inStorage,
      List.countP_eq_length_filter]
  refine ⟨?supplied, ?declared, ?declarations, hlength⟩
  case supplied =>
    have hlines := Sketch.filter_drawsImage settings p
    refine ⟨_, hlines, ?_, ?_⟩
    · -- No line that draws an image is broken by what is written into it.
      have hunbroken : ∀ l ∈ (Sketch.ofProject settings p).textLines, drawsImage l = true →
          '\n' ∉ l.toList := by
        intro l hl hdraws
        have hmem : l ∈ (Sketch.ofProject settings p).textLines.filter drawsImage :=
          List.mem_filter.mpr ⟨hl, hdraws⟩
        rw [hlines] at hmem
        rcases List.mem_cons.mp hmem with rfl | hmem
        · decide
        · rcases List.mem_filterMap.mp hmem with ⟨request, _, hdraw⟩
          exact unbroken_of_draw? hdraw
      have hsub := sublist_lines hunbroken
      rwa [hlines] at hsub
    · induction p.imageRequests settings.panel with
      | nil => exact .nil
      | cons request requests ih =>
          rcases request with ⟨name, b⟩
          by_cases hname : name ∈ p.assetNames
          · rcases AssetSymbols.exists_resolve? hname with ⟨i, a, s, hi, hentry, hresolve⟩
            rw [List.filter_cons, if_pos (decide_eq_true hname), List.filterMap_cons,
              AssetSymbols.draw?, hresolve]
            exact .cons (Supplied.of_entry h hi hentry b) ih
          · -- No asset answers, so the sketch draws nothing and nothing has to be supplied.
            rw [List.filter_cons, if_neg (by rwa [decide_eq_true_eq]), List.filterMap_cons,
              AssetSymbols.draw?, AssetSymbols.resolve?_eq_none hname]
            exact ih
  case declared =>
    intro i a ha hstorage
    rcases AssetSymbols.exists_entry ha with ⟨s, hentry⟩
    refine ⟨s, ?_, Header.declares_render settings hentry hstorage⟩
    rw [AssetSymbols.at?_eq, hentry, Option.map_some]
  case declarations =>
    refine ⟨_, Header.filter_isDeclaration_lines settings p, Header.nodup_symbols settings p, ?_⟩
    rw [List.length_map, hlength]

/-- Assets of one name in different storage places, one of them without a payload,
    and names that lead to one identifier. -/
theorem exportsAgree_repeated_names :
    let p : Project :=
      { screens := [{ backgroundAsset := some "my logo",
                      elements := [{ kind := .pushImage, asset := some "my-logo" },
                        { kind := .pushImage, asset := some "icon" }] }]
        assets := [{ name := "my logo", storage := .littleFs }, { name := "my logo" },
          { name := "my-logo", dataUrl := "data:image/jpeg;base64,QUJD", storage := .littleFs },
          { name := "icon", width := 8, height := 4 }] }
    ∃ bundle, Bundle.ofProject {} p = .ok bundle ∧ ExportsAgree {} p bundle
      ∧ (Sketch.ofProject {} p).textLines.filter drawsImage
        = ["    tft.pushImage(x, y, w, h, bitmap);",
          "    TJpgDec.drawFsJpg(0, 0, \"/my_logo.jpg\", LittleFS);",
          "    TJpgDec.drawFsJpg(10, 10, \"/my_logo_2.jpg\", LittleFS);",
          "    tft.pushImage(10, 10, 50, 50, icon);"]
      ∧ (Header.ofProject {} p).render
        = String.join (["#ifndef IMAGES_H", "#define IMAGES_H", "#include <pgmspace.h>", "",
          "// Image: my_logo_1 (240x240)", "const uint16_t my_logo_1[] PROGMEM = \x7b",
          "    // RGB565 data placeholder", "    0x0000", "\x7d;", "",
          "// Image: icon (8x4)", "const uint16_t icon[] PROGMEM = \x7b",
          "    // RGB565 data placeholder", "    0x0000", "\x7d;", "", "#endif"].map (· ++ "\n"))
      ∧ bundle.entries.drop 2 = [⟨"data/my_logo_2.jpg", [65, 66, 67]⟩]
      ∧ bundle.skipped = ["my logo"] := by
  intro p
  have hnames : ((Bundle.given {} p).map (·.name)).Nodup := by decide +kernel
  rcases Bundle.exists_ofProject hnames with ⟨bundle, hbundle⟩
  rcases Bundle.entries_ofProject hbundle with ⟨hentries, -, hskipped⟩
  refine ⟨bundle, hbundle, exportsAgree_ofProject {} p hbundle, by decide +kernel,
    by decide +kernel, ?_, ?_⟩
  · rw [hentries]
    decide +kernel
  · rw [hskipped]
    decide +kernel

end PanelSketch
