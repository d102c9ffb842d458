import Mathlib.Data.List.Forall2
import Rinha.Proofs.Layout

/-!
# The grammar of the wire form

Data is a node if it is a truth value, an integer or a string, or an object of one of the kinds with
the fields of the layout of its kind.  Decoding accepts exactly these data, unless the host cannot
follow their nesting.  It looks at nothing but the kind, the fields of the layout and the location,
and a location never makes it refuse anything, unless an integer in it is too long to be written.

## Main definitions

* `Json.WithinDigits`, `Json.depth` -- the integers and the nesting of data.
* `Wire.Fits` -- data has the form that is asked for; `Wire.Fits .node` is the grammar of nodes.
* `Wire.Refusal` -- what decoding refuses data with.
* `Wire.Judges`, `Wire.decodeNode_judges` -- decoding accepts what has the form, and refuses all
  else.
* `Wire.Agree`, `Wire.decodeNode_congr` -- data that agrees in all that decoding looks at.
-/

namespace Rinha

namespace Json

/-! ## Integers and nesting -/

mutual

/-- No integer in data is too long to be written. -/
def WithinDigits : Json → Prop
  | .int value => value.natAbs < decimalBound
  | .arr items => ItemsWithinDigits items
  | .obj fields => FieldsWithinDigits fields
  | .null | .bool _ | .real _ | .str _ => True

/-- No integer in the items of a list is too long to be written. -/
def ItemsWithinDigits : List Json → Prop
  | [] => True
  | item :: rest => item.WithinDigits ∧ ItemsWithinDigits rest

/-- No integer in the fields of an object is too long to be written. -/
def FieldsWithinDigits : List (String × Json) → Prop
  | [] => True
  | (_, value) :: rest => value.WithinDigits ∧ FieldsWithinDigits rest

end

mutual

/-- How many lists and objects are nested in one another. -/
def depth : Json → Nat
  | .arr items => itemsDepth items + 1
  | .obj fields => fieldsDepth fields + 1
  | .null | .bool _ | .int _ | .real _ | .str _ => 0

/-- The depth of the deepest item of a list. -/
def itemsDepth : List Json → Nat
  | [] => 0
  | item :: rest => max item.depth (itemsDepth rest)

/-- The depth of the deepest field of an object. -/
def fieldsDepth : List (String × Json) → Nat
  | [] => 0
  | (_, value) :: rest => max value.depth (fieldsDepth rest)

end

section

variable {items : List Json} {fields : List (String × Json)} {key : String} {data : Json}

theorem ItemsWithinDigits.mem (h : ItemsWithinDigits items) (hdata : data ∈ items) :
    data.WithinDigits := by
  induction items with
  | nil => simp at hdata
  | cons item rest ih =>
    rcases List.mem_cons.1 hdata with rfl | hrest
    · exact h.1
    · exact ih h.2 hrest

theorem depth_le_itemsDepth (h : data ∈ items) : data.depth ≤ itemsDepth items := by
  induction items with
  | nil => simp at h
  | cons item rest ih =>
    rw [itemsDepth]
    rcases List.mem_cons.1 h with rfl | hrest
    · exact Nat.le_max_left ..
    · exact Nat.le_trans (ih hrest) (Nat.le_max_right ..)

/-- A field that is found is one of the fields. -/
theorem mem_of_lookup (h : lookup key fields = some data) : (key, data) ∈ fields := by
  induction fields with
  | nil => simp [lookup] at h
  | cons field rest ih =>
    rw [lookup] at h
    split at h
    · next hkey =>
      obtain rfl := beq_iff_eq.1 hkey
      cases h
      exact List.mem_cons_self
    · exact List.mem_cons_of_mem _ (ih h)

/-- Only objects have fields. -/
theorem exists_obj_of_field? {value : Json} (h : data.field? key = some value) :
    ∃ fields, data = .obj fields ∧ lookup key fields = some value := by
  cases data with
  | obj fields => exact ⟨fields, rfl, h⟩
  | _ => cases h

theorem FieldsWithinDigits.lookup (h : FieldsWithinDigits fields)
    (hdata : lookup key fields = some data) : data.WithinDigits := by
  have hmem : (key, data) ∈ fields := mem_of_lookup hdata
  clear hdata
  induction fields with
  | nil => simp at hmem
  | cons field rest ih =>
    rcases List.mem_cons.1 hmem with rfl | hrest
    · exact h.1
    · exact ih h.2 hrest

theorem depth_le_fieldsDepth (h : lookup key fields = some data) :
    data.depth ≤ fieldsDepth fields := by
  have hmem : (key, data) ∈ fields := mem_of_lookup h
  clear h
  induction fields with
  | nil => simp at hmem
  | cons field rest ih =>
    rw [fieldsDepth]
    rcases List.mem_cons.1 hmem with rfl | hrest
    · exact Nat.le_max_left ..
    · exact Nat.le_trans (ih hrest) (Nat.le_max_right ..)

end

mutual

/-- Data has a text if no integer in it is too long to be written. -/
theorem exists_shown (data : Json) (h : data.WithinDigits) : ∃ text, data.shown = .ok text := by
  match data with
  | .null | .bool _ | .real _ | .str _ => exact ⟨_, rfl⟩
  | .int value => exact ⟨_, decimal_of_lt h⟩
  | .arr items =>
    obtain ⟨texts, htexts⟩ := exists_shownItems items h
    exact ⟨_, by rw [shown, htexts]; rfl⟩
  | .obj fields =>
    obtain ⟨texts, htexts⟩ := exists_shownFields fields h
    exact ⟨_, by rw [shown, htexts]; rfl⟩

theorem exists_shownItems (items : List Json) (h : ItemsWithinDigits items) :
    ∃ texts, shownItems items = .ok texts := by
  match items with
  | [] => exact ⟨[], rfl⟩
  | item :: rest =>
    obtain ⟨text, htext⟩ := exists_shown item h.1
    obtain ⟨texts, htexts⟩ := exists_shownItems rest h.2
    exact ⟨text :: texts, by rw [shownItems, htext, htexts]; rfl⟩

theorem exists_shownFields (fields : List (String × Json)) (h : FieldsWithinDigits fields) :
    ∃ texts, shownFields fields = .ok texts := by
  match fields with
  | [] => exact ⟨[], rfl⟩
  | (name, value) :: rest =>
    obtain ⟨text, htext⟩ := exists_shown value h.1
    obtain ⟨texts, htexts⟩ := exists_shownFields rest h.2
    exact ⟨_, by rw [shownFields, htext, htexts]; rfl⟩

end

theorem exists_display {data : Json} (h : data.WithinDigits) :
    ∃ text, data.display = .ok text := by
  cases data with
  | str value => exact ⟨value, rfl⟩
  | _ => exact exists_shown _ h

end Json

namespace Wire

/-! ## Locations -/

/-- The fields of a location. -/
def locationKeys : List String := ["start", "end", "filename"]

/-- A field of the location of an object. -/
def locationField (fields : Fields) (key : String) : Option Json :=
  (Json.lookup "location" fields).bind (Json.field? key)

/-- A location is made of its three fields; what is no object has none of them. -/
theorem location_eq (data : Option Json) :
    location data =
      match (data.bind (Json.field? "start")).bind offset?,
        ((data.bind (Json.field? "end")).or (data.bind (Json.field? "start"))).bind offset? with
      | some start, some stop => do
        let name := (data.bind (Json.field? "filename")).getD (.str "")
        let filename ← Halt.ofConversion name.display
        return some ⟨start, stop, filename⟩
      | _, _ => .ok none := by
  cases data with
  | none => rfl
  | some data => cases data <;> rfl

/-- A location is never refused, unless an integer in it is too long to be written. -/
theorem exists_location {fields : Fields} (h : Json.FieldsWithinDigits fields) :
    ∃ l, location (Json.lookup "location" fields) = .ok l := by
  have hname : ((locationField fields "filename").getD (.str "")).WithinDigits := by
    unfold locationField
    cases hlocation : Json.lookup "location" fields with
    | none => trivial
    | some data =>
      have hdata : data.WithinDigits := h.lookup hlocation
      cases data with
      | obj inner =>
        cases hfilename : Json.lookup "filename" inner with
        | none => simp [Json.field?, hfilename, Json.WithinDigits]
        | some name =>
          have hname : name.WithinDigits := Json.FieldsWithinDigits.lookup hdata hfilename
          simpa [Json.field?, hfilename] using hname
      | _ => trivial
  obtain ⟨text, htext⟩ := Json.exists_display hname
  unfold locationField at htext
  rw [location_eq]
  split
  · exact ⟨_, by simp only [htext]; rfl⟩
  · exact ⟨none, rfl⟩

/-! ## The grammar -/

/-- The name that an identifier spells: a string is its own name, and an object has one as its
`text`. -/
inductive Names : Json → String → Prop
  | plain {name : String} : Names (.str name) name
  | text {fields : Fields} {name : String} : Json.lookup "text" fields = some (.str name) →
    Names (.obj fields) name

/-- Data has the form that is asked for.  A node is a literal, or an object with one of the kinds
and with the fields that the kind has, each of which has the form that is asked for. -/
inductive Fits : Shape → Json → Prop
  | text (value : String) : Fits .text (.str value)
  | integer (value : Int) : Fits .integer (.int value)
  | truth (value : Bool) : Fits .truth (.bool value)
  | operator (op : Operator) : Fits .operator (.str op.name)
  | name {data : Json} {name : String} : Names data name → Fits .name data
  | names {items : List Json} : (∀ data ∈ items, Fits .name data) → Fits .names (.arr items)
  | bool (value : Bool) : Fits .node (.bool value)
  | int (value : Int) : Fits .node (.int value)
  | str (value : String) : Fits .node (.str value)
  | object {fields : Fields} (kind : Node.Kind) :
    Json.lookup "kind" fields = some (.str kind.name) →
    (∀ field ∈ kind.layout, (Json.lookup field.1 fields).isSome) →
    (∀ field ∈ kind.layout, ∀ data, Json.lookup field.1 fields = some data → Fits field.2 data) →
    Fits .node (.obj fields)
  | nodes {items : List Json} : (∀ data ∈ items, Fits .node data) → Fits .nodes (.arr items)

/-- An object has a field of a layout, and its data has the form that is asked for. -/
def Has (fields : Fields) (field : String × Shape) : Prop :=
  ∃ data, Json.lookup field.1 fields = some data ∧ Fits field.2 data

theorem fits_name_iff {data : Json} : Fits .name data ↔ ∃ name, Names data name := by
  constructor
  · rintro (_ | _ | _ | _ | hname)
    exact ⟨_, hname⟩
  · rintro ⟨name, hname⟩
    exact .name hname

theorem fits_names_iff {items : List Json} :
    Fits .names (.arr items) ↔ ∀ data ∈ items, Fits .name data := by
  constructor
  · rintro (_ | _ | _ | _ | _ | hitems)
    exact hitems
  · exact .names

theorem fits_nodes_iff {items : List Json} :
    Fits .nodes (.arr items) ↔ ∀ data ∈ items, Fits .node data := by
  constructor
  · intro h
    cases h with
    | nodes hitems => exact hitems
  · exact .nodes

theorem fits_object_iff {fields : Fields} :
    Fits .node (.obj fields) ↔ ∃ kind : Node.Kind,
      Json.lookup "kind" fields = some (.str kind.name) ∧
      ∀ field ∈ kind.layout, Has fields field := by
  constructor
  · intro h
    cases h with
    | object kind hkind hpresent hfits =>
      refine ⟨kind, hkind, fun field hfield => ?_⟩
      obtain ⟨data, hdata⟩ := Option.isSome_iff_exists.1 (hpresent field hfield)
      exact ⟨data, hdata, hfits field hfield data hdata⟩
  · rintro ⟨kind, hkind, hfields⟩
    refine .object kind hkind (fun field hfield => ?_) fun field hfield data hdata => ?_
    · obtain ⟨data, hdata, -⟩ := hfields field hfield
      simp [hdata]
    · obtain ⟨data', hdata', hfits⟩ := hfields field hfield
      rw [hdata] at hdata'
      cases hdata'
      exact hfits

theorem fits_object_iff_of_kind {fields : Fields} {kind : Node.Kind}
    (h : Json.lookup "kind" fields = some (.str kind.name)) :
    Fits .node (.obj fields) ↔ ∀ field ∈ kind.layout, Has fields field := by
  rw [fits_object_iff]
  constructor
  · rintro ⟨other, hother, hfields⟩
    rw [h] at hother
    obtain rfl := Node.Kind.name_injective (Json.str.inj (Option.some.inj hother))
    exact hfields
  · exact fun hfields => ⟨kind, h, hfields⟩

/-! ## Decoding judges data -/

/-- What decoding refuses data with: the data is malformed, or it names a kind or an operator that
does not exist. -/
inductive Refusal : Halt → Prop
  | malformed (message : String) : Refusal (malformed message)
  | unknownKind {name : String} (location : Option Location) : Node.Kind.ofName? name = none →
    Refusal (.error (.unknownNodeKind name) location)
  | unknownOperator {name : String} (location : Option Location) : Operator.ofName? name = none →
    Refusal (.error (.unknownOperator name) location)

/-- The result of a decoder judges data: if data is accepted then it has the form asked for, and if
it is refused then it has not.  The host may fail to follow only what is nested deeply. -/
def Judges {α : Type} (deep form : Prop) : Except Halt α → Prop
  | .ok _ => form
  | .error halt => halt = .nesting ∧ deep ∨ Refusal halt ∧ ¬ form

namespace Judges

variable {α β : Type} {deep deep' form form' : Prop} {result : Except Halt α}

theorem accept (h : form) (a : α) : Judges deep form (.ok a : Except Halt α) :=
  h

theorem refuse {halt : Halt} (hhalt : Refusal halt) (h : ¬ form) :
    Judges deep form (.error halt : Except Halt α) :=
  .inr ⟨hhalt, h⟩

theorem malformed (message : String) (h : ¬ form) :
    Judges deep form (.error (Wire.malformed message) : Except Halt α) :=
  .refuse (.malformed message) h

theorem mono (h : Judges deep form result) (hdeep : deep → deep') : Judges deep' form result := by
  cases result with
  | ok a => exact h
  | error halt => exact h.imp_left fun ⟨hhalt, hd⟩ => ⟨hhalt, hdeep hd⟩

theorem of_iff (h : Judges deep form result) (hform : form ↔ form') :
    Judges deep form' result := by
  rwa [← propext hform]

/-- What comes after another judgement is judged only if that accepts. -/
theorem bind {next : α → Except Halt β} (h : Judges deep form result)
    (hnext : ∀ a, result = .ok a → Judges deep form' (next a)) :
    Judges deep (form ∧ form') (result >>= next) := by
  cases result with
  | ok a =>
    have hrest : Judges deep form' (next a) := hnext a rfl
    exact hrest.of_iff (and_iff_right h).symm
  | error halt => exact h.imp_right fun ⟨hhalt, hform⟩ => ⟨hhalt, fun hboth => hform hboth.1⟩

/-- Decoding further what was accepted changes nothing. -/
theorem map (h : Judges deep form result) (f : α → β) :
    Judges deep form (do return f (← result)) :=
  (h.bind fun a _ => accept trivial (f a)).of_iff (and_true form).to_iff

/-- A list is accepted if its items are. -/
theorem all {decode : Json → Except Halt α} {form : Json → Prop} {items : List Json}
    (h : ∀ data ∈ items, Judges deep (form data) (decode data)) :
    Judges deep (∀ data ∈ items, form data) (decodeAll decode items) := by
  induction items with
  | nil => exact accept (by simp) []
  | cons item rest ih =>
    have hitem := h item List.mem_cons_self
    have hrest := ih fun data hdata => h data (List.mem_cons_of_mem _ hdata)
    exact (hitem.bind fun _ _ => hrest.map _).of_iff List.forall_mem_cons.symm

end Judges

theorem identifier_judges (deep : Prop) (key : String) (data : Json) :
    Judges deep (Fits .name data) (identifier key data) := by
  unfold identifier
  split
  · next name => exact .accept (.name .plain) name
  · next name _ hfield =>
    obtain ⟨fields, rfl, htext⟩ := Json.exists_obj_of_field? hfield
    exact .accept (.name (.text htext)) name
  · next hplain htext =>
    refine .malformed _ fun hfits => ?_
    obtain ⟨name, hname⟩ := fits_name_iff.1 hfits
    cases hname with
    | plain => exact hplain _ rfl
    | text hfield => exact htext _ hfield

section

variable {decode : Json → Except Halt Node} {budget : Nat}
  (hdecode : ∀ data, data.WithinDigits →
    Judges (budget ≤ data.depth) (Fits .node data) (decode data))
include hdecode

/-- The data of a field is judged by the form that is asked for, if nodes are judged rightly. -/
theorem readData_judges (location : Option Location) (key : String) (shape : Shape) {data : Json}
    (hdata : data.WithinDigits) :
    Judges (budget ≤ data.depth) (Fits shape data)
      (readData decode location key shape data) := by
  have hitems : ∀ items, data = .arr items → ∀ item ∈ items,
      Judges (budget ≤ data.depth) (Fits .node item) (decode item) := by
    rintro items rfl item hitem
    refine (hdecode item (Json.ItemsWithinDigits.mem hdata hitem)).mono fun hdeep => ?_
    exact Nat.le_succ_of_le (Nat.le_trans hdeep (Json.depth_le_itemsDepth hitem))
  cases shape with
  | text =>
    cases data with
    | str value => exact .accept (.text value) _
    | _ => exact .malformed _ (fun h => nomatch h)
  | integer =>
    cases data with
    | int value => exact .accept (.integer value) _
    | _ => exact .malformed _ (fun h => nomatch h)
  | truth =>
    cases data with
    | bool value => exact .accept (.truth value) _
    | _ => exact .malformed _ (fun h => nomatch h)
  | operator =>
    cases data with
    | str name =>
      cases hop : Operator.ofName? name with
      | some op =>
        rw [← Operator.name_of_ofName? hop]
        simp only [readData, Operator.ofName?_name]
        exact .accept (.operator op) _
      | none =>
        simp only [readData, hop]
        refine .refuse (.unknownOperator location hop) fun h => ?_
        cases h
        simp at hop
    | _ => exact .malformed _ (fun h => nomatch h)
  | name => exact (identifier_judges _ key data).map _
  | names =>
    cases data with
    | arr items =>
      exact ((Judges.all fun item _ => identifier_judges _ key item).map _).of_iff
        fits_names_iff.symm
    | _ => exact .malformed _ (fun h => nomatch h)
  | node => exact (hdecode data hdata).map _
  | nodes =>
    cases data with
    | arr items =>
      exact ((Judges.all (hitems items rfl)).map _).of_iff fits_nodes_iff.symm
    | _ => exact .malformed _ (fun h => nomatch h)

section

variable (kind : Node.Kind) {fields : Fields} (location : Option Location)
  (hfields : Json.FieldsWithinDigits fields)
include hfields

/-- A field is judged by whether it is there and has the form that is asked for. -/
theorem readPart_judges (key : String) (shape : Shape) :
    Judges (budget ≤ Json.fieldsDepth fields) (Has fields (key, shape))
      (readPart decode kind fields location key shape) := by
  cases hlookup : Json.lookup key fields with
  | none =>
    have hresult : readPart decode kind fields location key shape =
        .error (malformed (kind.name ++ " is missing field '" ++ key ++ "'")) := by
      simp [readPart, required, hlookup, bind, Except.bind]
    rw [hresult]
    refine .malformed _ ?_
    rintro ⟨data, hdata, -⟩
    simp [hlookup] at hdata
  | some data =>
    have hresult : readPart decode kind fields location key shape =
        readData decode location key shape data := by
      simp [readPart, required, hlookup, bind, Except.bind]
    rw [hresult]
    have hform : Fits shape data ↔ Has fields (key, shape) := by simp [Has, hlookup]
    refine ((readData_judges hdecode location key shape (hfields.lookup hlookup)).of_iff
      hform).mono fun hdeep => ?_
    exact Nat.le_trans hdeep (Json.depth_le_fieldsDepth hlookup)

/-- Fields are judged by whether all of them are there and have the forms that are asked for. -/
theorem readParts_judges (layout : List (String × Shape)) :
    Judges (budget ≤ Json.fieldsDepth fields) (∀ field ∈ layout, Has fields field)
      (readParts decode kind fields location layout) := by
  induction layout with
  | nil => exact .accept (by simp) []
  | cons field rest ih =>
    have hfield := readPart_judges hdecode kind location hfields field.1 field.2
    exact (hfield.bind fun part _ => ih.map _).of_iff List.forall_mem_cons.symm

end

/-- A node is judged by the grammar, if its children are. -/
theorem decodeWith_judges {data : Json} (hdata : data.WithinDigits) :
    Judges (budget + 1 ≤ data.depth) (Fits .node data) (decodeWith decode data) := by
  cases data with
  | bool value => exact .accept (.bool value) _
  | int value => exact .accept (.int value) _
  | str value => exact .accept (.str value) _
  | obj fields =>
    have hother : (∀ kind : Node.Kind, Json.lookup "kind" fields ≠ some (.str kind.name)) →
        ¬ Fits .node (.obj fields) := by
      intro hkind hfits
      obtain ⟨kind, hlookup, -⟩ := fits_object_iff.1 hfits
      exact hkind kind hlookup
    cases hlookup : Json.lookup "kind" fields with
    | none =>
      simp only [decodeWith, hlookup]
      exact .malformed _ (hother (by simp [hlookup]))
    | some data =>
      cases data with
      | str name =>
        obtain ⟨l, hl⟩ := exists_location hdata
        simp only [decodeWith, hlookup, hl]
        cases hkind : Node.Kind.ofName? name with
        | none =>
          refine .refuse (.unknownKind l hkind) (hother ?_)
          rintro kind hname
          cases hlookup.symm.trans hname
          simp at hkind
        | some kind =>
          obtain rfl := Node.Kind.name_of_ofName? hkind
          have hparts := readParts_judges hdecode kind l hdata kind.layout
          have hjudges : Judges (budget ≤ Json.fieldsDepth fields) (Fits .node (.obj fields))
              (decodeFields decode kind fields l) :=
            decodeFields_eq .. ▸ (hparts.map _).of_iff (fits_object_iff_of_kind hlookup).symm
          exact hjudges.mono Nat.succ_le_succ
      | _ =>
        simp only [decodeWith, hlookup]
        exact .malformed _ (hother (by simp [hlookup]))
  | _ => exact .malformed _ (fun h => nomatch h)

end

/-- Decoding accepts what the grammar has and refuses all else, unless the data is nested so deeply
that the host cannot follow it. -/
theorem decodeNode_judges (budget : Nat) {data : Json} (hdata : data.WithinDigits) :
    Judges (budget ≤ data.depth) (Fits .node data) (decodeNode budget data) := by
  induction budget generalizing data with
  | zero => exact .inl ⟨rfl, Nat.zero_le _⟩
  | succ budget ih => exact decodeWith_judges (fun _ => ih) hdata

/-- The host can follow whatever is not nested too deeply. -/
theorem decodeNode_ne_nesting {budget : Nat} {data : Json} (hdata : data.WithinDigits)
    (h : data.depth < budget) : decodeNode budget data ≠ .error .nesting := by
  intro hresult
  have hjudges := decodeNode_judges budget hdata
  rw [hresult] at hjudges
  rcases hjudges with ⟨-, hdeep⟩ | ⟨hrefusal, -⟩
  · omega
  · cases hrefusal

/-! ## What decoding does not look at -/

/-- Data that agrees in all that decoding looks at where data of a form is asked for: in the names
that identifiers spell, in the items of lists, and in the kind, the location and the fields of the
layout of objects. -/
inductive Agree : Shape → Json → Json → Prop
  | refl (shape : Shape) (data : Json) : Agree shape data data
  | name {data data' : Json} {name : String} : Names data name → Names data' name →
    Agree .name data data'
  | names {items items' : List Json} : List.Forall₂ (Agree .name) items items' →
    Agree .names (.arr items) (.arr items')
  | nodes {items items' : List Json} : List.Forall₂ (Agree .node) items items' →
    Agree .nodes (.arr items) (.arr items')
  | object {fields fields' : Fields} :
    Json.lookup "kind" fields = Json.lookup "kind" fields' →
    (∀ key ∈ locationKeys, locationField fields key = locationField fields' key) →
    (∀ kind : Node.Kind, Json.lookup "kind" fields = some (.str kind.name) →
      ∀ field ∈ kind.layout,
        (Json.lookup field.1 fields).isSome = (Json.lookup field.1 fields').isSome) →
    (∀ kind : Node.Kind, Json.lookup "kind" fields = some (.str kind.name) →
      ∀ field ∈ kind.layout, ∀ data data', Json.lookup field.1 fields = some data →
        Json.lookup field.1 fields' = some data' → Agree field.2 data data') →
    Agree .node (.obj fields) (.obj fields')

/-- The order of the fields of an object does not matter, as long as the same is found under every
name. -/
theorem Agree.of_lookup {fields fields' : Fields}
    (h : ∀ key, Json.lookup key fields = Json.lookup key fields') :
    Agree .node (.obj fields) (.obj fields') := by
  refine .object (h "kind") ?_ ?_ ?_
  · intro key _
    rw [locationField, locationField, h]
  · intro kind _ field _
    rw [h]
  · intro kind _ field _ data data' hdata hdata'
    rw [← h, hdata] at hdata'
    cases hdata'
    exact .refl field.2 data

/-- A field that is none of those that decoding looks at can be set to anything. -/
theorem Agree.insert {fields : Fields} {key : String} (hkind : key ≠ "kind")
    (hlocation : key ≠ "location")
    (hlayout : ∀ kind : Node.Kind, Json.lookup "kind" fields = some (.str kind.name) →
      ∀ field ∈ kind.layout, field.1 ≠ key) (value : Json) :
    Agree .node (.obj fields) (.obj (Json.insert key value fields)) := by
  have hother : ∀ other, other ≠ key →
      Json.lookup other (Json.insert key value fields) = Json.lookup other fields :=
    fun other h => Json.lookup_insert_of_ne h value fields
  refine .object (hother _ hkind.symm).symm ?_ ?_ ?_
  · intro part _
    rw [locationField, locationField, hother _ hlocation.symm]
  · intro kind hk field hfield
    rw [hother _ (hlayout kind hk field hfield)]
  · intro kind hk field hfield data data' hdata hdata'
    rw [hother _ (hlayout kind hk field hfield), hdata] at hdata'
    cases hdata'
    exact .refl field.2 data

/-- Locations are alike if their fields are. -/
theorem location_congr {fields fields' : Fields}
    (h : ∀ key ∈ locationKeys, locationField fields key = locationField fields' key) :
    location (Json.lookup "location" fields) = location (Json.lookup "location" fields') := by
  simp only [locationKeys, List.mem_cons, List.not_mem_nil, or_false, forall_eq_or_imp,
    forall_eq, locationField] at h
  obtain ⟨hstart, hstop, hfilename⟩ := h
  rw [location_eq, location_eq, hstart, hstop, hfilename]

theorem identifier_of_names {data : Json} {name : String} (h : Names data name) (key : String) :
    identifier key data = .ok name := by
  cases h with
  | plain => rfl
  | text htext => simp [identifier, Json.field?, htext]

/-- Decoding two lists gives the same if it gives the same for their items one by one. -/
theorem decodeAll_congr {α : Type} {decode : Json → Except Halt α} {items items' : List Json}
    (h : List.Forall₂ (fun data data' => decode data = decode data') items items') :
    decodeAll decode items = decodeAll decode items' := by
  induction h with
  | nil => rfl
  | cons hitem _ ih => simp only [decodeAll, hitem, ih]

section

variable {decode : Json → Except Halt Node}
  (hdecode : ∀ data data', Agree .node data data' → decode data = decode data')
include hdecode

theorem readData_congr (location : Option Location) (key : String) {shape : Shape}
    {data data' : Json} (h : Agree shape data data') :
    readData decode location key shape data = readData decode location key shape data' := by
  cases h with
  | refl => rfl
  | name hname hname' =>
    simp only [readData, identifier_of_names hname, identifier_of_names hname']
  | names hitems =>
    have hnames : List.Forall₂ (fun data data' => identifier key data = identifier key data') _ _ :=
      hitems.imp fun data data' h => by
        cases h with
        | refl => rfl
        | name hname hname' => rw [identifier_of_names hname, identifier_of_names hname']
    simp only [readData, decodeAll_congr hnames]
  | nodes hitems =>
    simp only [readData, decodeAll_congr (hitems.imp hdecode)]
  | object hkind hlocation hpresent hfields =>
    simp only [readData, hdecode _ _ (.object hkind hlocation hpresent hfields)]

theorem readParts_congr (kind : Node.Kind) (location : Option Location) {fields fields' : Fields}
    {layout : List (String × Shape)}
    (hpresent : ∀ field ∈ layout,
      (Json.lookup field.1 fields).isSome = (Json.lookup field.1 fields').isSome)
    (hagree : ∀ field ∈ layout, ∀ data data', Json.lookup field.1 fields = some data →
      Json.lookup field.1 fields' = some data' → Agree field.2 data data') :
    readParts decode kind fields location layout =
      readParts decode kind fields' location layout := by
  induction layout with
  | nil => rfl
  | cons field rest ih =>
    have hrest := ih (fun field hfield => hpresent field (List.mem_cons_of_mem _ hfield))
      (fun field hfield => hagree field (List.mem_cons_of_mem _ hfield))
    have hpart : readPart decode kind fields location field.1 field.2 =
        readPart decode kind fields' location field.1 field.2 := by
      have hsome := hpresent field List.mem_cons_self
      have hdata := hagree field List.mem_cons_self
      cases hlookup : Json.lookup field.1 fields with
      | none =>
        rw [hlookup, Option.isSome_none, eq_comm, Option.isSome_eq_false_iff,
          Option.isNone_iff_eq_none] at hsome
        simp only [readPart, required, hlookup, hsome]
      | some data =>
        rw [hlookup, Option.isSome_some, eq_comm, Option.isSome_iff_exists] at hsome
        obtain ⟨data', hlookup'⟩ := hsome
        simp only [readPart, required, hlookup, hlookup']
        exact readData_congr hdecode location field.1 (hdata data data' hlookup hlookup')
    simp only [readParts, hpart, hrest]

theorem decodeWith_congr {data data' : Json} (h : Agree .node data data') :
    decodeWith decode data = decodeWith decode data' := by
  cases h with
  | refl => rfl
  | @object fields fields' hkind hlocation hpresent hfields =>
    simp only [decodeWith, ← hkind, location_congr hlocation]
    split
    · rfl
    · rfl
    · next name hname =>
      cases hofName : Node.Kind.ofName? name with
      | none => rfl
      | some kind =>
        obtain rfl := Node.Kind.name_of_ofName? hofName
        simp only [decodeFields_eq, readParts_congr hdecode kind _ (hpresent kind hname)
          (hfields kind hname)]
    · rfl

end

/-- Data that agrees in all that decoding looks at is decoded to the same node, or refused in the
same way. -/
theorem decodeNode_congr (budget : Nat) {data data' : Json} (h : Agree .node data data') :
    decodeNode budget data = decodeNode budget data' := by
  induction budget generalizing data data' with
  | zero => rfl
  | succ budget ih => exact decodeWith_congr (fun _ _ => ih) h

/-- **Decoding accepts exactly the wire form.**  If no integer in the data is too long to be written
and the host can follow its nesting, then decoding yields a node exactly if the data fits the
grammar, in which locations play no part.  All data that agrees with it in the kinds, the fields of
their layouts and the locations is decoded alike.  What is refused is malformed, or names a kind or
an operator that does not exist. -/
theorem decodeNode_accepts (budget : Nat) (data : Json) (hdata : data.WithinDigits)
    (hhost : decodeNode budget data ≠ .error .nesting) :
    ((∃ node, decodeNode budget data = .ok node) ↔ Fits .node data) ∧
    (∀ data', Agree .node data data' → decodeNode budget data' = decodeNode budget data) ∧
    ∀ halt, decodeNode budget data = .error halt → Refusal halt := by
  have hjudges := decodeNode_judges budget hdata
  refine ⟨?_, fun data' hagree => (decodeNode_congr budget hagree).symm, ?_⟩
  · cases hresult : decodeNode budget data with
    | ok node =>
      rw [hresult] at hjudges
      exact iff_of_true ⟨node, rfl⟩ hjudges
    | error halt =>
      rw [hresult] at hjudges
      rcases hjudges with ⟨rfl, -⟩ | ⟨-, hform⟩
      · exact absurd hresult hhost
      · exact iff_of_false (fun ⟨_, h⟩ => nomatch h) hform
  · intro halt hresult
    rw [hresult] at hjudges
    rcases hjudges with ⟨rfl, -⟩ | ⟨hrefusal, -⟩
    · exact absurd hresult hhost
    · exact hrefusal

/-- A node whose location is no location, and to which a comment is added, and an integer that is
none. -/
theorem decodeNode_accepts_comment :
    let next : Json := .obj [("text", .str "x"), ("kind", .str "Var"), ("location", .str "here")]
    let fields : Fields := [("kind", .str "Let"), ("name", .obj [("text", .str "x")]),
      ("value", .int 1), ("next", next)]
    let wrong : Json := .obj [("kind", .str "Int"), ("value", .bool true)]
    Fits .node (.obj fields) ∧ ¬ Fits .node wrong ∧
    decodeNode 9 (.obj (Json.insert "comment" .null fields)) = decodeNode 9 (.obj fields) := by
  intro next fields wrong
  have hone : (1 : Int).natAbs < decimalBound := by decide +kernel
  have hdigits : (Json.obj fields).WithinDigits :=
    ⟨trivial, ⟨trivial, trivial⟩, hone, ⟨trivial, trivial, trivial, trivial⟩, trivial⟩
  have haccepts := decodeNode_accepts 9 (.obj fields) hdigits
    (decodeNode_ne_nesting hdigits (by decide))
  have hwrong : wrong.WithinDigits := ⟨trivial, trivial, trivial⟩
  have hrefuses := decodeNode_accepts 9 wrong hwrong (decodeNode_ne_nesting hwrong (by decide))
  refine ⟨haccepts.1.1 ⟨_, rfl⟩, fun hfits => ?_, haccepts.2.1 _ ?_⟩
  · obtain ⟨node, hnode⟩ := hrefuses.1.2 hfits
    cases hnode
  · refine .insert (by decide) (by decide) (fun kind hkind => ?_) .null
    have hname : some (Json.str Node.Kind.letIn.name) = some (.str kind.name) := hkind
    obtain rfl := Node.Kind.name_injective (Json.str.inj (Option.some.inj hname))
    decide

end Wire

end Rinha
