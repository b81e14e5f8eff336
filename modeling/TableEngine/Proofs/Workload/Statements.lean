import TableEngine.Proofs.Engine.Retrieval
import TableEngine.Proofs.Statement.Bare
import TableEngine.Proofs.Workload.Draws
import TableEngine.Workload.Statements

/-!
# What the workload writes

Every text of the workload writes a statement that fits its three tables : a row
has as many values as the table columns, and an update sets a column that the table declares
(`Fits`). This holds of the rows that fill the tables (`yields_prepopulation`) and of every
statement that is drawn (`yields_query`), from every generator that keeps its positions in range
and whatever else it yields.

The numbers, cities and categories in a text are bare words, so it is the text of a
printable statement (`Statement.text`), and is read as that.
-/

namespace TableEngine.Workload

open Sampling Text

/-- The tables and their columns. -/
def schemas : List (String × List String) :=
  [("users", ["id", "name", "age", "city"]),
   ("products", ["id", "name", "price", "category"]),
   ("orders", ["id", "user_id", "product_id", "quantity"])]

/-- The statement is about one of the tables, and has the values or the column it needs. -/
inductive Fits : Statement → Prop
  | insert {name : String} {columns values : List String} : (name, columns) ∈ schemas →
    values.length = columns.length → Fits (.insert name values)
  | select {name : String} {columns : List String} {f : Filter} : (name, columns) ∈ schemas →
    Fits (.select name f)
  | update {name column value : String} {columns : List String} {f : Filter} :
    (name, columns) ∈ schemas → column ∈ columns → Fits (.update name column value f)
  | delete {name : String} {columns : List String} {f : Filter} : (name, columns) ∈ schemas →
    Fits (.delete name f)

/-- The text is read as a statement that fits. -/
def Suits (text : String) : Prop := ∃ st, Statement.ofText text = .ok st ∧ Fits st

theorem suits_of_eq_text (st : Statement) {text : String} (htext : text = st.text)
    (h : st.Printable) (hfits : Fits st) : Suits text := by
  rw [htext]
  exact ⟨st, Statement.ofText_eq_of_prints h (Statement.prints_text h), hfits⟩

/-! ## The parts of a statement -/

variable {name column value : String} {columns values : List String}

theorem isWord_name (h : (name, columns) ∈ schemas) : IsWord name := by
  have hall : ∀ schema ∈ schemas, IsWord schema.1 := by decide
  exact hall _ h

/-- No column reads as a connective or as an operator. -/
theorem printable_condition (h : (name, columns) ∈ schemas) (hcolumn : column ∈ columns)
    (comparison : Comparison) (hvalue : IsBare value) :
    (Condition.mk column comparison (some value)).Printable := by
  have hword : ∀ schema ∈ schemas, ∀ column ∈ schema.2, IsWord column := by decide
  have hconnective (join : Connective) :
      ∀ schema ∈ schemas, ∀ column ∈ schema.2, ¬Spells column join.word := by
    cases join <;> decide
  have hoperator (comparison : Comparison) :
      ∀ schema ∈ schemas, ∀ column ∈ schema.2, column ∉ comparison.spellings := by
    cases comparison <;> decide
  refine ⟨hword _ h _ hcolumn, fun join => hconnective join _ h _ hcolumn,
    fun comparison => hoperator comparison _ h _ hcolumn, ?_⟩
  rintro literal ⟨⟩
  exact hvalue.isWord

theorem printable_equals (h : (name, columns) ∈ schemas) (hcolumn : column ∈ columns)
    (hvalue : IsBare value) : (Filter.equals column value).Printable where
  conditions c hc := by
    cases List.mem_singleton.mp hc
    exact printable_condition h hcolumn .equal hvalue
  complete := nofun

/-! ## Texts that suit -/

section Texts

variable {a b c d label key low high : String} (h : (name, columns) ∈ schemas)
include h

theorem suits_insert (hvalues : ∀ value ∈ [a, b, c, d], IsBare value) :
    Suits ("INSERT INTO " ++ name ++ " VALUES (" ++ a ++ ", " ++ b ++ ", " ++ c ++ ", " ++ d ++
      ")") := by
  have hlen : ∀ schema ∈ schemas, 4 = schema.2.length := by decide
  refine suits_of_eq_text (.insert name [a, b, c, d]) (String.toList_inj.mp ?_)
    ⟨isWord_name h, isList_of_isBare (List.cons_ne_nil _ _) hvalues⟩ (.insert h (hlen _ h))
  simp [Statement.text, listText]

/-- A row whose second value is a quoted label with the number of the row, and whose last value
is quoted. -/
theorem suits_insert_quoted (ha : IsBare a) (hlabel : IsBare label) (hc : IsBare c)
    (hd : IsBare d) : Suits ("INSERT INTO " ++ name ++ " VALUES (" ++ a ++ (", '" ++ label) ++ a ++
      "', " ++ c ++ ", '" ++ d ++ "')") := by
  have hquote : IsBare "'" := by decide
  have hvalues : ∀ value ∈ [a, "'" ++ label ++ a ++ "'", c, "'" ++ d ++ "'"], IsBare value := by
    simp only [List.forall_mem_cons, List.not_mem_nil, false_implies, implies_true, and_true]
    exact ⟨ha, ((hquote.append hlabel).append ha).append hquote, hc,
      (hquote.append hd).append hquote⟩
  convert suits_insert h hvalues using 1
  exact String.toList_inj.mp (by simp)

theorem suits_select : Suits ("SELECT * FROM " ++ name) := by
  refine suits_of_eq_text (.select name []) (String.toList_inj.mp ?_)
    ⟨isWord_name h, nofun, nofun⟩ (.select h)
  simp [Statement.text, Filter.clause]

theorem suits_select_between (hcolumn : column ∈ columns) (hlow : IsBare low)
    (hhigh : IsBare high) : Suits ("SELECT * FROM " ++ name ++ " WHERE " ++ column ++ " > " ++
      low ++ (" AND " ++ column ++ " < ") ++ high) := by
  let f : Filter := [.test ⟨column, .greater, some low⟩, .join .and,
    .test ⟨column, .less, some high⟩]
  have hprintable : f.Printable := by
    refine ⟨fun c hc => ?_, fun c hc => ?_⟩
    · simp only [f, List.mem_cons, List.not_mem_nil, Term.test.injEq, reduceCtorEq, or_false,
        false_or] at hc
      rcases hc with rfl | rfl
      · exact printable_condition h hcolumn .greater hlow
      · exact printable_condition h hcolumn .less hhigh
    · have hc : c = ⟨column, .greater, some low⟩ := by simpa [f] using hc
      rw [hc]
      nofun
  refine suits_of_eq_text (.select name f) (String.toList_inj.mp ?_)
    ⟨isWord_name h, hprintable⟩ (.select h)
  simp [Statement.text, f, Filter.clause, Filter.words, Comparison.symbol, Connective.word]

theorem suits_update (hcolumn : column ∈ columns) (ha : IsBare a) (hkey : key ∈ columns)
    (hb : IsBare b) : Suits ("UPDATE " ++ name ++ " SET " ++ column ++ " = " ++ a ++
      (" WHERE " ++ key ++ " = ") ++ b) := by
  have hprintable : (Statement.update name column a (.equals key b)).Printable :=
    ⟨isWord_name h, (printable_condition h hcolumn .equal ha).column, ha.isWord,
      printable_equals h hkey hb⟩
  refine suits_of_eq_text _ (String.toList_inj.mp ?_) hprintable (.update h hcolumn)
  simp [Statement.text, Filter.equals, Filter.clause, Filter.words, Comparison.symbol]

theorem suits_update_quoted (hcolumn : column ∈ columns) (ha : IsBare a) (hkey : key ∈ columns)
    (hb : IsBare b) : Suits ("UPDATE " ++ name ++ " SET " ++ column ++ " = " ++ a ++
      (" WHERE " ++ key ++ " = '") ++ b ++ "'") := by
  have hquote : IsBare "'" := by decide
  convert suits_update h hcolumn ha hkey ((hquote.append hb).append hquote) using 1
  exact String.toList_inj.mp (by simp)

theorem suits_delete (hkey : key ∈ columns) (ha : IsBare a) :
    Suits ("DELETE FROM " ++ name ++ " WHERE " ++ key ++ " = " ++ a) := by
  refine suits_of_eq_text (.delete name (.equals key a)) (String.toList_inj.mp ?_)
    ⟨isWord_name h, printable_equals h hkey ha⟩ (.delete h)
  simp [Statement.text, Filter.equals, Filter.clause, Filter.words, Comparison.symbol]

end Texts

/-! ## The rows at the start -/

variable {g : Generator}

theorem users_mem : ("users", ["id", "name", "age", "city"]) ∈ schemas := by decide

theorem products_mem : ("products", ["id", "name", "price", "category"]) ∈ schemas := by decide

theorem orders_mem : ("orders", ["id", "user_id", "product_id", "quantity"]) ∈ schemas := by decide

theorem suits_insertUser (id age : Nat) {city : String} (hcity : IsBare city) :
    Suits (insertUser id age city) := by
  have hlabel : IsBare "User" := by decide
  exact (suits_insert_quoted users_mem (isBare_toString id) hlabel (isBare_toString age) hcity :)

theorem suits_insertProduct (id : Nat) {price category : String} (hprice : IsBare price)
    (hcategory : IsBare category) : Suits (insertProduct id price category) := by
  have hlabel : IsBare "Product" := by decide
  exact (suits_insert_quoted products_mem (isBare_toString id) hlabel hprice hcategory :)

theorem suits_insertOrder (id user product quantity : Nat) :
    Suits (insertOrder id user product quantity) := by
  have hvalues : ∀ value ∈ [toString id, toString user, toString product, toString quantity],
      IsBare value :=
    List.forall_mem_map.mpr fun n (_ : n ∈ [id, user, product, quantity]) => isBare_toString n
  exact (suits_insert orders_mem hvalues :)

theorem yields_city (hg : g.InRange) : (pick g cities).Yields IsBare := fun s =>
  have hall : ∀ city ∈ cities, IsBare city := by decide
  hall _ (yields_pick hg (by decide) s)

theorem yields_category (hg : g.InRange) : (pick g categories).Yields IsBare := fun s =>
  have hall : ∀ category ∈ categories, IsBare category := by decide
  hall _ (yields_pick hg (by decide) s)

theorem yields_seedUser (hg : g.InRange) (i : Nat) : (seedUser g i).Yields Suits :=
  (yields_city hg).bind fun _ hcity => .pure (suits_insertUser i _ hcity)

theorem yields_seedProduct (hg : g.InRange) (i : Nat) : (seedProduct g i).Yields Suits :=
  (yields_category hg).bind fun _ hcategory =>
    .pure (suits_insertProduct i ((isBare_toString _).append (by decide)) hcategory)

theorem yields_seedOrder (i : Nat) : (seedOrder g i).Yields Suits :=
  .bind (.any _) fun _ _ => .bind (.any _) fun _ _ => .bind (.any _) fun _ _ =>
    .pure (suits_insertOrder i _ _ _)

theorem yields_prepopulation (hg : g.InRange) (count : Nat) :
    (prepopulation g count).Yields fun texts => ∀ text ∈ texts, Suits text :=
  (yields_drawEach (yields_seedUser hg) _).bind fun _ husers =>
    (yields_drawEach (yields_seedProduct hg) _).bind fun _ hproducts =>
      (yields_drawEach yields_seedOrder _).bind fun _ horders =>
        .pure (List.forall_mem_append.mpr ⟨List.forall_mem_append.mpr ⟨husers, hproducts⟩, horders⟩)

theorem length_prepopulation (count : Nat) :
    (prepopulation g count).Yields fun texts => texts.length = 3 * count :=
  (length_drawEach (seedUser g) _).bind fun _ husers =>
    (length_drawEach (seedProduct g) _).bind fun _ hproducts =>
      (length_drawEach (seedOrder g) _).bind fun _ horders => .pure (by
        rw [List.length_append, List.length_append, husers, hproducts, horders, List.length_range]
        omega)

/-! ## The statements that are drawn -/

theorem yields_insertion (hg : g.InRange) : (insertion g).Yields Suits := by
  refine .bind (.any _) fun table _ => ?_
  split
  · exact .bind (.any _) fun id _ => .bind (.any _) fun age _ =>
      (yields_city hg).bind fun _ hcity => .pure (suits_insertUser id age hcity)
  · exact .bind (.any _) fun id _ => .bind (.any _) fun price _ =>
      (yields_category hg).bind fun _ hcategory =>
        .pure (suits_insertProduct id price.isBare_text hcategory)
  · exact .bind (.any _) fun id _ => .bind (.any _) fun user _ => .bind (.any _) fun product _ =>
      .bind (.any _) fun quantity _ => .pure (suits_insertOrder id user product quantity)

theorem yields_selection (hg : g.InRange) : (selection g).Yields Suits := by
  have hall : ∀ name ∈ tables, ∃ schema ∈ schemas, schema.1 = name := by decide
  refine (yields_pick hg (by decide)).bind fun name hname => .pure ?_
  obtain ⟨schema, h, rfl⟩ := hall name hname
  exact suits_select h

theorem yields_modification : (modification g).Yields Suits := by
  refine .bind (.any _) fun table _ => ?_
  split
  · refine .bind (.any _) fun id _ => .bind (.any _) fun age _ => .pure ?_
    exact (suits_update users_mem (by decide : "age" ∈ _) (isBare_toString age)
      (by decide : "id" ∈ _) (isBare_toString id) :)
  · refine .bind (.any _) fun id _ => .bind (.any _) fun price _ => .pure ?_
    exact (suits_update products_mem (by decide : "price" ∈ _) price.isBare_text
      (by decide : "id" ∈ _) (isBare_toString id) :)
  · refine .bind (.any _) fun id _ => .bind (.any _) fun quantity _ => .pure ?_
    exact (suits_update orders_mem (by decide : "quantity" ∈ _) (isBare_toString quantity)
      (by decide : "id" ∈ _) (isBare_toString id) :)

theorem yields_deletion : (deletion g).Yields Suits := by
  refine .bind (.any _) fun table _ => ?_
  split
  · refine .bind (.any _) fun id _ => .pure ?_
    exact (suits_delete users_mem (by decide : "id" ∈ _) (isBare_toString id) :)
  · refine .bind (.any _) fun id _ => .pure ?_
    exact (suits_delete products_mem (by decide : "id" ∈ _) (isBare_toString id) :)
  · refine .bind (.any _) fun id _ => .pure ?_
    exact (suits_delete orders_mem (by decide : "id" ∈ _) (isBare_toString id) :)

theorem yields_rangeSelection : (rangeSelection g).Yields Suits := by
  refine .bind (.any _) fun ages _ => ?_
  split
  · refine .bind (.any _) fun low _ => .bind (.any _) fun width _ => .pure ?_
    exact (suits_select_between users_mem (by decide : "age" ∈ _) (isBare_toString low)
      (isBare_toString (low + width)) :)
  · refine .bind (.any _) fun start _ => .bind (.any _) fun width _ => .pure ?_
    let low := (Binary64.ofInt 50).add start
    exact (suits_select_between products_mem (by decide : "price" ∈ _) low.isBare_text
      (low.add width).isBare_text :)

theorem yields_bulkModification (hg : g.InRange) : (bulkModification g).Yields Suits := by
  refine .bind (.any _) fun users _ => ?_
  split
  · refine .bind (.any _) fun age _ => (yields_city hg).bind fun city hcity => .pure ?_
    exact (suits_update_quoted users_mem (by decide : "age" ∈ _) (isBare_toString age)
      (by decide : "city" ∈ _) hcity :)
  · refine .bind (.any _) fun price _ =>
      (yields_category hg).bind fun category hcategory => .pure ?_
    exact (suits_update_quoted products_mem (by decide : "price" ∈ _) price.isBare_text
      (by decide : "category" ∈ _) hcategory :)

theorem yields_statement (hg : g.InRange) (shape : Shape) : (statement g shape).Yields Suits := by
  cases shape with
  | insert => exact yields_insertion hg
  | select => exact yields_selection hg
  | update => exact yields_modification
  | delete => exact yields_deletion
  | rangeSelect => exact yields_rangeSelection
  | bulkUpdate => exact yields_bulkModification hg

theorem yields_query (hg : g.InRange) : (query g).Yields fun drawn => Suits drawn.2 :=
  .bind (.any _) fun _ _ => (yields_statement hg _).bind fun _ htext => .pure htext

end TableEngine.Workload
