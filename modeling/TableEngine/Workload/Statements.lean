import TableEngine.Number.Shortest
import TableEngine.Sampling.Generator

/-!
# Statements of the workload

The workload fills three tables, `users`, `products` and `orders`, and then draws statements of
six shapes. `prepopulation` draws the rows that fill the tables, `statement` a statement of a
given shape. The generator that they draw from is a parameter.
-/

namespace TableEngine.Workload

open Sampling

/-- The shapes of statement that are drawn. -/
inductive Shape
  | insert
  | select
  | update
  | delete
  | rangeSelect
  | bulkUpdate
  deriving DecidableEq, Repr

namespace Shape

def all : List Shape := [insert, select, update, delete, rangeSelect, bulkUpdate]

/-- The place of a shape in the list of all. -/
def index : Shape → Fin 6
  | insert => 0
  | select => 1
  | update => 2
  | delete => 3
  | rangeSelect => 4
  | bulkUpdate => 5

def label : Shape → String
  | insert => "insert"
  | select => "select"
  | update => "update"
  | delete => "delete"
  | rangeSelect => "range select"
  | bulkUpdate => "bulk update"

end Shape

def cities : List String :=
  ["NewYork", "LosAngeles", "Chicago", "Boston", "Miami", "Seattle", "Austin", "Dallas",
   "Atlanta", "Denver"]

def categories : List String :=
  ["Electronics", "Appliances", "Clothing", "Furniture", "Toys", "Sports", "Books", "Beauty",
   "Garden"]

def tables : List String := ["users", "products", "orders"]

/-- The statements that create the tables. -/
def creations : List String :=
  ["CREATE TABLE users (id, name, age, city)",
   "CREATE TABLE products (id, name, price, category)",
   "CREATE TABLE orders (id, user_id, product_id, quantity)"]

/-! ## Texts of statements -/

def insertUser (id age : Nat) (city : String) : String :=
  s!"INSERT INTO users VALUES ({id}, 'User{id}', {age}, '{city}')"

def insertProduct (id : Nat) (price category : String) : String :=
  s!"INSERT INTO products VALUES ({id}, 'Product{id}', {price}, '{category}')"

def insertOrder (id user product quantity : Nat) : String :=
  s!"INSERT INTO orders VALUES ({id}, {user}, {product}, {quantity})"

variable (g : Generator)

/-! ## Prices -/

/-- A random fraction of `scale`. -/
def part (scale : Nat) : Draw g Binary64 := do
  return (← g.fraction).mul (.ofInt scale)

/-- A price from 50 up to 1050. -/
def price : Draw g Binary64 := do
  return (Binary64.ofInt 50).add (← part g 1000)

/-! ## Filling the tables -/

def seedUser (i : Nat) : Draw g String := do
  return insertUser i (20 + i % 41) (← pick g cities)

def seedProduct (i : Nat) : Draw g String := do
  return insertProduct i (toString (10 + i % 990) ++ ".00") (← pick g categories)

def seedOrder (i : Nat) : Draw g String := do
  let user ← g.between 0 9999
  let product ← g.between 0 9999
  let quantity ← g.between 1 100
  return insertOrder i user product quantity

/-- Rows `0, …, count - 1` of each table. -/
def prepopulation (count : Nat) : Draw g (List String) := do
  let users ← drawEach (seedUser g) (List.range count)
  let products ← drawEach (seedProduct g) (List.range count)
  let orders ← drawEach (seedOrder g) (List.range count)
  return users ++ products ++ orders

/-! ## Random statements -/

def insertion : Draw g String := do
  match ← g.between 0 3 with
  | 0 =>
    let id ← g.between 10000 20000
    let age ← g.between 20 80
    return insertUser id age (← pick g cities)
  | 1 =>
    let id ← g.between 10000 11000
    let price ← price g
    return insertProduct id price.text (← pick g categories)
  | _ =>
    let id ← g.through 1 10000
    let user ← g.through 1 10000
    let product ← g.through 1 1000
    let quantity ← g.through 1 10
    return insertOrder id user product quantity

def selection : Draw g String := do
  return "SELECT * FROM " ++ (← pick g tables)

def modification : Draw g String := do
  match ← g.between 0 3 with
  | 0 =>
    let id ← g.through 1 10000
    let age ← g.between 20 80
    return s!"UPDATE users SET age = {age} WHERE id = {id}"
  | 1 =>
    let id ← g.through 1 1000
    let price := (← price g).text
    return s!"UPDATE products SET price = {price} WHERE id = {id}"
  | _ =>
    let id ← g.through 1 10000
    let quantity ← g.through 1 10
    return s!"UPDATE orders SET quantity = {quantity} WHERE id = {id}"

def deletion : Draw g String := do
  match ← g.between 0 3 with
  | 0 =>
    let id ← g.through 1 10000
    return s!"DELETE FROM users WHERE id = {id}"
  | 1 =>
    let id ← g.through 1 1000
    return s!"DELETE FROM products WHERE id = {id}"
  | _ =>
    let id ← g.through 1 10000
    return s!"DELETE FROM orders WHERE id = {id}"

def rangeSelection : Draw g String := do
  if ← g.coin then
    let low ← g.between 20 40
    let high := low + (← g.between 0 30)
    return s!"SELECT * FROM users WHERE age > {low} AND age < {high}"
  else
    let low := (Binary64.ofInt 50).add (← part g 200)
    let high := (low.add (← part g 500)).text
    let low := low.text
    return s!"SELECT * FROM products WHERE price > {low} AND price < {high}"

def bulkModification : Draw g String := do
  if ← g.coin then
    let age ← g.between 20 80
    let city ← pick g cities
    return s!"UPDATE users SET age = {age} WHERE city = '{city}'"
  else
    let price := (← price g).text
    let category ← pick g categories
    return s!"UPDATE products SET price = {price} WHERE category = '{category}'"

/-- A statement of the given shape. -/
def statement : Shape → Draw g String
  | .insert => insertion g
  | .select => selection g
  | .update => modification g
  | .delete => deletion g
  | .rangeSelect => rangeSelection g
  | .bulkUpdate => bulkModification g

/-- A shape and a statement of it. -/
def query : Draw g (Shape × String) := do
  let shape := Shape.all.getD (← g.position Shape.all.length) .insert
  return (shape, ← statement g shape)

end TableEngine.Workload
