import GasNow.Machine.Runs
import GasNow.Text.Numerals
import GasNow.Firestore
import GasNow.ProductInformation
import GasNow.Effect
import GasNow.UserDocuments
import GasNow.CartVC
import GasNow.CartScreen
import GasNow.WishlistVC
import GasNow.CartCoherence
import GasNow.Machine.Positions
import GasNow.CartDelete
import GasNow.WishlistScreen
import GasNow.WishlistMove
import GasNow.ProductDetailsVC
import GasNow.ProductRoundTrip
import GasNow.Trap
import GasNow.OrdersViewController
import GasNow.LocationVC
import GasNow.ListScreen
import GasNow.ListReload
import GasNow.Text.DateFormatter
import GasNow.DeliveryDate
import GasNow.SignedInUser
import GasNow.TabBar
import GasNow.SharedManager
import GasNow.HomeVC
import GasNow.AccountScreens
import GasNow.UpdateProfileVC
import GasNow.ProfilePhoto
import GasNow.ProgressHUD
import GasNow.DepotChoice
import GasNow.Geometry.Strip
import GasNow.InjectableScrollView
import GasNow.SplashPaging
import GasNow.Text.CharacterSet
import GasNow.PhoneNumber
import GasNow.Text.Unicode
import GasNow.FirstLetter
import GasNow.CustomTextFieldLayout
import GasNow.Media.Timeline
import GasNow.GifAnimation
import GasNow.Geometry.Columns
import GasNow.PinterestLayout
import GasNow.HomeScreen
import GasNow.Codes.Ordered
import GasNow.Codes.WordScan
import GasNow.Codes.BigEndian
import GasNow.Codes.Latch
import GasNow.Firestore.OrderedCode
import GasNow.Firestore.SignedNum
import GasNow.Firestore.KeyReader
import GasNow.Firestore.LevelDbKey
import GasNow.Stores.SortedMap
import GasNow.Firestore.LevelDbTransaction
import GasNow.Firestore.MutationRuns
