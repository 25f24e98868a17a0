/-
Dense numeric arrays.

The data are held in row-major order whatever the strides say: strides are layout information that
a program can ask for and a guard can pin down, and no operation reads them.  An array is
*well formed* when its data fill its shape and every dimension has a stride.

Besides the elementwise operations there is `select`, which takes one row along the first
dimension.  Selecting once per dimension ends at the element that the row-major strides address.
-/
import GuardedTrace.Array.Element
import GuardedTrace.Error

namespace GuardedTrace

/-- The number of elements of a shape. -/
def elementCount (shape : List Nat) : Nat := shape.foldr (· * ·) 1

/-- The number of elements of a shape, wrapped around to a size.  This is the number that the
operations compute with; for the shape of an array that fits into memory it is `elementCount`. -/
def wrappedCount (shape : List Nat) : Nat := wrapSize (elementCount shape)

/-- Row-major strides of a shape, in elements; each stride is held at the greatest size. -/
def rowMajorStrides : List Nat → List Nat
  | [] => []
  | _ :: rest => rest.foldr saturatingMul 1 :: rowMajorStrides rest

/-- A numeric array. -/
structure NumArray where
  elementType : ElementType
  device : Device
  /-- The sizes of the dimensions, outermost first. -/
  shape : List Nat
  /-- Layout information, in elements; not used by the operations. -/
  strides : List Nat
  /-- The elements in row-major order. -/
  data : List Double
deriving DecidableEq

namespace NumArray

/-- The data fill the shape, their number is a size, and every dimension has a stride. -/
structure WellFormed (array : NumArray) : Prop where
  length_data : array.data.length = elementCount array.shape
  count_le : elementCount array.shape ≤ maxSize
  length_strides : array.strides.length = array.shape.length

/-- An array in row-major layout, without a check of its size. -/
def contiguous (elementType : ElementType) (device : Device) (shape : List Nat)
    (data : List Double) : NumArray :=
  { elementType, device, shape, strides := rowMajorStrides shape, data }

/-- An array of the given shape and data; the data have to fill the shape. -/
def ofData (shape : List Nat) (data : List Double) : Run NumArray :=
  if wrappedCount shape = data.length then .ok (contiguous .float64 .cpu shape data)
  else .error (.value (.reshape data.length shape))

/-- An array of the given shape with one value everywhere. -/
def full (shape : List Nat) (value : Double) : NumArray :=
  contiguous .float64 .cpu shape (List.replicate (wrappedCount shape) value)

/-- An array without dimensions. -/
def scalar (value : Double) (elementType : ElementType) (device : Device) : NumArray :=
  contiguous elementType device [] [value]

/-- The number of dimensions. -/
def rank (array : NumArray) : Nat := array.shape.length

/-- Applies a function to every element. -/
def map (array : NumArray) (elementType : ElementType) (f : Double → Double) : NumArray :=
  contiguous elementType array.device array.shape (array.data.map f)

/-- Combines two arrays of equal shape element by element, or an array with one that has no
dimensions. -/
def zipWith (a b : NumArray) (f : Double → Double → Double) : Run NumArray :=
  let elementType := a.elementType.promote b.elementType
  if a.shape = b.shape then
    .ok (contiguous elementType a.device a.shape (List.zipWith f a.data b.data))
  else
    match a.data, b.data, a.shape, b.shape with
    | _, [y], _, [] => .ok (a.map elementType fun x => f x y)
    | [x], _, [], _ => .ok (b.map elementType fun y => f x y)
    | _, _, _, _ => .error (.shapeMismatch a.shape b.shape)

/-- The row at `index` along the first dimension. -/
def select (array : NumArray) (index : Int64) : Run NumArray :=
  match array.shape with
  | [] => .error (.index .scalarArray)
  | size :: rest =>
    match position? index size with
    | none => .error (.index (.outOfBounds index size))
    | some position =>
      let inner := wrappedCount rest
      if position * inner + inner ≤ array.data.length then
        .ok (contiguous array.elementType array.device rest
          ((array.data.drop (position * inner)).take inner))
      else .error (.index (.outOfRange index))

/-- The sum of all elements as an array without dimensions.  Adding starts from negative zero, the
neutral element of addition. -/
def sum (array : NumArray) : NumArray :=
  scalar (array.data.foldl Double.add Double.negZero) array.elementType array.device

/-- Numeric equality: equal description, and elements equal as numbers. -/
def numEq (a b : NumArray) : Bool :=
  a.elementType = b.elementType && a.device = b.device && a.shape = b.shape
    && a.strides = b.strides && a.data.length = b.data.length
    && (List.zipWith Double.numEq a.data b.data).all id

end NumArray

end GuardedTrace
